import DeploymentRouting.Proofs.Dispatch.Outcome
import DeploymentRouting.Proofs.Stream.Reading
/-!
What a reader of a routed stream gets. It is what the backend says, item by item, up to the first
error or to the end of the request. After that the stream tells its end, and with it the places
are settled and the cost is reported, once and at one price.
-/
namespace DeploymentRouting

/-- The last usage that some chunks report. -/
def lastUsage (chunks : List Chunk) : Option TokenUsage := (chunks.filterMap Chunk.usage).getLast?

theorem lastUsage_cons (chunk : Chunk) (chunks : List Chunk) :
    lastUsage (chunk :: chunks) = (lastUsage chunks).or chunk.usage := by
  cases hUsage : chunk.usage <;>
    simp [lastUsage, hUsage, List.getLast?_cons]

/-- What a reader got from a stream that it polled to its end, and beyond. -/
structure Transcript where
  /-- The chunks. -/
  handed : List Pull
  /-- What came after them, before the end. -/
  final : List Pull
  closing : Pull
  later : List Pull

def Transcript.pulls (transcript : Transcript) : List Pull :=
  transcript.handed ++ transcript.final ++ transcript.closing :: transcript.later

/-- How a stream goes on when its chunks have been handed on, for what the backend has left to
say. -/
inductive Ending (deadline : Instant) : Upstream → List Pull → Prop where
  | ended : Ending deadline .nil []
  | failed {pull : Pull} {error : BackendError} (rest : Upstream)
      (hItem : pull.item = .error error) :
      Ending deadline (.cons (.error error) rest) [pull]
  /-- The next item was not there at the end of the request. -/
  | overdue {pull : Pull} (rest : Upstream) (hLate : pull.poll.isLate deadline = true)
      (hNow : pull.now = max pull.poll.since deadline)
      (hItem : pull.item = .error (.timeout "request deadline exceeded mid-stream")) :
      Ending deadline rest [pull]

namespace Reader

variable {reader : Reader} {polls : List Poll}

/-- A transcript of all that a backend says, in which the router is touched once, at the end. -/
structure Tells (reader : Reader) (source : Upstream) (transcript : Transcript)
    (chunks : List Chunk) (rest : Upstream) : Prop where
  source : source = .after chunks rest
  handed : transcript.handed.map Pull.item = chunks.map StreamItem.chunk
  ending : Ending reader.stream.request.deadline rest transcript.final
  quiet : ∀ pull ∈ transcript.handed ++ transcript.final ++ transcript.later,
    pull.after = pull.poll.router
  closing : transcript.closing.item = .ended
  later : ∀ pull ∈ transcript.later, pull.item = .ended
  settled : reader.Settles ((lastUsage chunks).or reader.stream.usage) transcript.closing

theorem reads_closed (h : reader.stream.phase = .closed) :
    ∀ pull ∈ reader.reads polls, pull.item = .ended ∧ pull.after = pull.poll.router := by
  induction polls with
  | nil => exact List.forall_mem_nil _
  | cons poll polls ih =>
      rw [reads, read_closed h]
      exact List.forall_mem_cons.mpr ⟨⟨rfl, rfl⟩, ih⟩

/-- A stream that has handed on its last item only has its end to tell. -/
theorem reads_closing (h : reader.stream.phase = .closing)
    (hEnds : ∃ pull ∈ reader.reads polls, pull.item = .ended) :
    ∃ closing later, reader.reads polls = closing :: later ∧ closing.item = .ended ∧
      reader.Settles reader.stream.usage closing ∧
      ∀ pull ∈ later, pull.item = .ended ∧ pull.after = pull.poll.router := by
  cases polls with
  | nil =>
      obtain ⟨pull, hMem, _⟩ := hEnds
      cases hMem
  | cons poll polls =>
      obtain ⟨closing, hRead, hItem, hSettles⟩ := read_closing h poll
      rw [reads, hRead]
      exact ⟨closing, _, rfl, hItem, hSettles, reads_closed rfl⟩

/-- The end is still to come after an item that is none. -/
theorem ends_of_cons {pull : Pull} {pulls : List Pull}
    (hEnds : ∃ other ∈ pull :: pulls, other.item = .ended) (hItem : pull.item ≠ .ended) :
    ∃ other ∈ pulls, other.item = .ended := by
  obtain ⟨other, hMem, hEnded⟩ := hEnds
  rcases List.mem_cons.mp hMem with rfl | hLater
  · exact absurd hEnded hItem
  · exact ⟨other, hLater, hEnded⟩

theorem Tells.chunk {pull : Pull} {chunk : Chunk} {rest left : Upstream}
    {transcript : Transcript} {chunks : List Chunk}
    (h : Tells ⟨reader.stream.handOn chunk, rest⟩ rest transcript chunks left)
    (hItem : pull.item = .chunk chunk) (hQuiet : pull.after = pull.poll.router) :
    reader.Tells (.cons (.ok chunk) rest)
      { transcript with handed := pull :: transcript.handed } (chunk :: chunks) left where
  source := by rw [Upstream.after_cons, ← h.source]
  handed := by rw [List.map_cons, List.map_cons, hItem, h.handed]
  ending := h.ending
  quiet := List.forall_mem_cons.mpr ⟨hQuiet, h.quiet⟩
  closing := h.closing
  later := h.later
  settled := by
    rw [lastUsage_cons, Option.or_assoc]
    exact h.settled

/-- An error, of whatever kind, is followed by the end. -/
theorem tells_of_error {pull : Pull} {source rest : Upstream}
    (hEnding : Ending reader.stream.request.deadline source [pull])
    (hQuiet : pull.after = pull.poll.router)
    (hEnds : ∃ other ∈ pull ::
      Reader.reads ⟨{ reader.stream with phase := .closing }, rest⟩ polls, other.item = .ended)
    (hItem : pull.item ≠ .ended) :
    ∃ transcript chunks left,
      pull :: Reader.reads ⟨{ reader.stream with phase := .closing }, rest⟩ polls =
        transcript.pulls ∧ reader.Tells source transcript chunks left := by
  obtain ⟨closing, later, hReads, hClosing, hSettled, hLater⟩ :=
    reads_closing rfl (ends_of_cons hEnds hItem)
  refine ⟨⟨[], [pull], closing, later⟩, [], source, by rw [hReads]; rfl, ?_⟩
  exact {
    source := (Upstream.after_nil source).symm
    handed := rfl
    ending := hEnding
    quiet := List.forall_mem_cons.mpr ⟨hQuiet, fun other hOther => (hLater other hOther).2⟩
    closing := hClosing
    later := fun other hOther => (hLater other hOther).1
    settled := hSettled }

theorem tells_of_end {closing : Pull} {later : List Pull} (hItem : closing.item = .ended)
    (hSettles : reader.Settles reader.stream.usage closing)
    (hLater : ∀ pull ∈ later, pull.item = .ended ∧ pull.after = pull.poll.router) :
    reader.Tells .nil ⟨[], [], closing, later⟩ [] .nil where
  source := (Upstream.after_nil _).symm
  handed := rfl
  ending := .ended
  quiet pull hMem := (hLater pull hMem).2
  closing := hItem
  later pull hMem := (hLater pull hMem).1
  settled := hSettles

/-- A stream that asks the backend tells what the backend has left to say. -/
theorem tells_of_asks (hAsks : reader.stream.asksBackend = true)
    (hEnds : ∃ pull ∈ reader.reads polls, pull.item = .ended) :
    ∃ transcript chunks rest, reader.reads polls = transcript.pulls ∧
      reader.Tells reader.upstream transcript chunks rest := by
  induction polls generalizing reader with
  | nil =>
      obtain ⟨pull, hMem, _⟩ := hEnds
      cases hMem
  | cons poll polls ih =>
      rw [reads] at hEnds ⊢
      cases hLate : poll.isLate reader.stream.request.deadline with
      | true =>
          rw [read_late hAsks hLate] at hEnds ⊢
          exact tells_of_error (.overdue _ hLate rfl rfl) rfl hEnds nofun
      | false =>
          obtain ⟨chunk, rest, hUpstream, now, hRead⟩ | ⟨error, rest, hUpstream, now, hRead⟩ |
            ⟨hUpstream, closing, hRead, hItem, hSettles⟩ := read_inTime hAsks hLate
          · rw [hRead] at hEnds ⊢
            obtain ⟨transcript, chunks, left, hReads, hTells⟩ := ih rfl (ends_of_cons hEnds nofun)
            refine ⟨{ transcript with handed := _ :: transcript.handed }, chunk :: chunks, left,
              congrArg _ hReads, ?_⟩
            rw [hUpstream]
            exact hTells.chunk rfl rfl
          · rw [hRead] at hEnds ⊢
            rw [hUpstream]
            exact tells_of_error (.failed rest rfl) rfl hEnds nofun
          · rw [hRead, hUpstream]
            exact ⟨⟨[], [], closing, _⟩, [], .nil, rfl,
              tells_of_end hItem hSettles (reads_closed rfl)⟩

theorem ends_of_closing (h : reader.stream.phase = .closing) (hPolls : polls ≠ []) :
    ∃ pull ∈ reader.reads polls, pull.item = .ended := by
  cases polls with
  | nil => exact absurd rfl hPolls
  | cons poll polls =>
      obtain ⟨closing, hRead, hItem, _⟩ := read_closing h poll
      rw [reads, hRead]
      exact ⟨closing, List.mem_cons_self, hItem⟩

/-- A backend that comes to an end has the stream come to its own. At most one more item is handed
on than the backend has, and one more poll tells the end. -/
theorem ends_of_asks (hAsks : reader.stream.asksBackend = true)
    {items : List (Except BackendError Chunk)} (hItems : reader.upstream = .ofList items)
    (hPolls : items.length + 2 ≤ polls.length) :
    ∃ pull ∈ reader.reads polls, pull.item = .ended := by
  induction polls generalizing reader items with
  | nil => exact absurd hPolls (Nat.not_succ_le_zero _)
  | cons poll polls ih =>
      have hLeft : items.length + 1 ≤ polls.length := Nat.le_of_succ_le_succ hPolls
      have hMore : polls ≠ [] :=
        List.ne_nil_of_length_pos (Nat.lt_of_lt_of_le (Nat.succ_pos _) hLeft)
      suffices hHere : (reader.read poll).1.item = .ended ∨
          ∃ pull ∈ (reader.read poll).2.reads polls, pull.item = .ended by
        rw [reads]
        rcases hHere with hEnded | ⟨pull, hMem, hEnded⟩
        · exact ⟨_, List.mem_cons_self, hEnded⟩
        · exact ⟨pull, List.mem_cons_of_mem _ hMem, hEnded⟩
      cases hLate : poll.isLate reader.stream.request.deadline with
      | true =>
          rw [read_late hAsks hLate]
          exact .inr (ends_of_closing rfl hMore)
      | false =>
          obtain ⟨chunk, rest, hUpstream, now, hRead⟩ | ⟨error, rest, hUpstream, now, hRead⟩ |
            ⟨hUpstream, closing, hRead, hItem, _⟩ := read_inTime hAsks hLate
          · obtain ⟨left, rfl, hRest⟩ := Upstream.ofList_eq_cons (hItems.symm.trans hUpstream)
            rw [hRead]
            exact .inr (ih rfl hRest hLeft)
          · rw [hRead]
            exact .inr (ends_of_closing rfl hMore)
          · rw [hRead]
            exact .inl hItem

variable {request : Request} {callerAdmission : Option Admission} {upstream : Upstream}
  {delivery : Delivery (Option Chunk × Upstream)}

theorem phase_ofDelivery {first : Chunk} (request : Request) (callerAdmission : Option Admission)
    (hFirst : delivery.value.1 = some first) :
    (ofDelivery request callerAdmission delivery).stream.phase = .opening (some first) :=
  congrArg StreamPhase.opening hFirst

/-- A stream that began with no chunk asks the backend again. -/
theorem asksBackend_ofDelivery (request : Request) (callerAdmission : Option Admission)
    (hNone : delivery.value.1 = none) :
    (ofDelivery request callerAdmission delivery).stream.asksBackend = true := by
  simp only [ofDelivery, RoutedStream.ofDelivery, RoutedStream.asksBackend, hNone]

theorem tells_of_opened (hOpened : upstream.opened = .success delivery.value)
    (hEnds : ∃ pull ∈ (ofDelivery request callerAdmission delivery).reads polls,
      pull.item = .ended) :
    ∃ transcript chunks rest,
      (ofDelivery request callerAdmission delivery).reads polls = transcript.pulls ∧
        (ofDelivery request callerAdmission delivery).Tells upstream transcript chunks rest := by
  obtain ⟨first, hFirst, hUpstream⟩ | ⟨hNone, hUpstream, hRest⟩ := Upstream.eq_of_opened hOpened
  · have hOpening := phase_ofDelivery request callerAdmission hFirst
    cases polls with
    | nil =>
        obtain ⟨pull, hMem, _⟩ := hEnds
        cases hMem
    | cons poll polls =>
        rw [reads, read_opening hOpening] at hEnds ⊢
        obtain ⟨transcript, chunks, left, hReads, hTells⟩ :=
          tells_of_asks rfl (ends_of_cons hEnds nofun)
        refine ⟨{ transcript with handed := _ :: transcript.handed }, first :: chunks, left,
          congrArg _ hReads, ?_⟩
        rw [hUpstream]
        exact hTells.chunk rfl rfl
  · have hAsks := asksBackend_ofDelivery request callerAdmission hNone
    have hLeft : (ofDelivery request callerAdmission delivery).upstream = upstream :=
      hRest.trans hUpstream.symm
    rw [← hLeft]
    exact tells_of_asks hAsks hEnds

theorem ends_of_opened (hOpened : upstream.opened = .success delivery.value)
    {items : List (Except BackendError Chunk)} (hItems : upstream = .ofList items)
    (hPolls : items.length + 2 ≤ polls.length) :
    ∃ pull ∈ (ofDelivery request callerAdmission delivery).reads polls, pull.item = .ended := by
  obtain ⟨first, hFirst, hUpstream⟩ | ⟨hNone, hUpstream, hRest⟩ := Upstream.eq_of_opened hOpened
  · have hOpening := phase_ofDelivery request callerAdmission hFirst
    obtain ⟨left, rfl, hLeft⟩ := Upstream.ofList_eq_cons (hItems.symm.trans hUpstream)
    cases polls with
    | nil => exact absurd hPolls (Nat.not_succ_le_zero _)
    | cons poll polls =>
        have hLater : ∃ pull ∈ Reader.reads
            ⟨(ofDelivery request callerAdmission delivery).stream.handOn first,
              delivery.value.2⟩ polls, pull.item = .ended :=
          ends_of_asks rfl hLeft (Nat.le_of_succ_le_succ hPolls)
        obtain ⟨pull, hMem, hEnded⟩ := hLater
        rw [reads, read_opening hOpening]
        exact ⟨pull, List.mem_cons_of_mem _ hMem, hEnded⟩
  · have hAsks := asksBackend_ofDelivery request callerAdmission hNone
    exact ends_of_asks hAsks (hRest.trans (hUpstream.symm.trans hItems)) hPolls

end Reader

namespace RoutedStream

variable {dispatch : Dispatch (Option Chunk × Upstream)} {call : PendingCall} {router : Router}
  {now : Instant} {upstream : Upstream} {delivery : Delivery (Option Chunk × Upstream)}

/-- Whoever polls a routed stream to its end gets the chunks that the backend says, from the one
that was read during the call on, and after them nothing, the first error, or, if the next item is
not there at the end of the request, a timeout. The router is touched once, when the end is told:
both places are settled with the last usage that was handed on, or else with the estimate, and
that is the cost that is reported for the deployment that was called. A backend that comes to an
end has the stream come to its own. -/
theorem delivers_faithfully (hCall : dispatch.phase = .calling call)
    (hServed : (dispatch.answer router now upstream.opened).2.phase = .finished (.ok delivery))
    (callerAdmission : Option Admission) (polls : List Poll) :
    ((∃ pull ∈ (Reader.ofDelivery dispatch.request callerAdmission delivery).reads polls,
        pull.item = .ended) →
      ∃ (transcript : Transcript) (chunks : List Chunk) (rest : Upstream),
        (Reader.ofDelivery dispatch.request callerAdmission delivery).reads polls =
          transcript.pulls ∧
        upstream = .after chunks rest ∧
        transcript.handed.map Pull.item = chunks.map StreamItem.chunk ∧
        Ending dispatch.request.deadline rest transcript.final ∧
        transcript.closing.item = .ended ∧ (∀ pull ∈ transcript.later, pull.item = .ended) ∧
        (∀ pull ∈ transcript.handed ++ transcript.final ++ transcript.later,
          pull.after = pull.poll.router) ∧
        let tokens := ((lastUsage chunks).map TokenUsage.total).getD dispatch.request.estimate
        transcript.closing.after =
          ((transcript.closing.poll.router.settle call.admission tokens
              transcript.closing.now).settleSome callerAdmission tokens
                transcript.closing.now).notifySpend
            { caller := dispatch.request.caller, deployment := call.deployment.id
              model := delivery.modelUsed, tokens }) ∧
      ∀ items, upstream = .ofList items → items.length + 2 ≤ polls.length →
        ∃ pull ∈ (Reader.ofDelivery dispatch.request callerAdmission delivery).reads polls,
          pull.item = .ended := by
  obtain ⟨value, hOpened, rfl⟩ := Dispatch.served_of_answer hCall hServed
  refine ⟨fun hEnds => ?_, fun items => Reader.ends_of_opened hOpened⟩
  obtain ⟨transcript, chunks, rest, hReads, hTells⟩ := Reader.tells_of_opened hOpened hEnds
  refine ⟨transcript, chunks, rest, hReads, hTells.source, hTells.handed, hTells.ending,
    hTells.closing, hTells.later, hTells.quiet, ?_⟩
  have hSettled := hTells.settled
  simp only [Reader.Settles, Reader.ofDelivery, ofDelivery, Option.or_none] at hSettled
  exact hSettled

/-- Two chunks, of which the first one tells a usage, and an error after them. -/
def brokenUpstream : Upstream :=
  .ofList [.ok { payload := .null, usage := some ⟨4, 6⟩ }, .ok { payload := .null },
    .error (.server 500 "broken")]

/-- A router that reports costs, and has a limit for one caller. -/
def reportingRouter : Router :=
  { pairRouter with
    callerLimits := Table.ofList [("c", { parallel := some 2 })]
    spend := some (SpendQueue.new 4) }

/-- A request of nobody in particular whose call for a stream is out. -/
def openingDispatch : Dispatch (Option Chunk × Upstream) :=
  (Dispatch.run 1 {} (fun _ _ state => state) 3 (reportingRouter, ())
    (Dispatch.begin reportingRouter Route.pairRequest 0)).2

def limitedRequest : Request := { Route.pairRequest with caller := some "c", estimate := 7 }

/-- The limited caller has its place, and its call for a stream is out. -/
def limitedOpening : Router × Dispatch (Option Chunk × Upstream) :=
  let router := (reportingRouter.reserveCaller limitedRequest 0).1
  let ((router, _), dispatch) :=
    Dispatch.run 1 {} (fun _ _ state => state) 3 (router, ())
      (Dispatch.begin router limitedRequest 0)
  (router, dispatch)

/-- Polls of a reader in no hurry. The last one is beyond the end, which changes the router. -/
def slowPolls (before after : Router) : List Poll :=
  [20, 30, 40, 50].map (fun since => { since, wait := some 5, router := before }) ++
    [{ since := 60, wait := some 5, router := after }]

/-- The error is the last item. With the end both places go back, and the deployment and the caller
are charged with the usage of the first chunk in place of the estimate. -/
theorem delivers_faithfully_broken :
    ∃ (place : Admission) (delivery : Delivery (Option Chunk × Upstream)) (before after : Router)
      (transcript : Transcript) (chunks : List Chunk) (rest : Upstream),
      (reportingRouter.reserveCaller limitedRequest 0).2 = .ok (some place) ∧
        (limitedOpening.2.answer limitedOpening.1 10 brokenUpstream.opened).1 = before ∧
        (limitedOpening.2.answer limitedOpening.1 10 brokenUpstream.opened).2.phase =
          .finished (.ok delivery) ∧
        (Reader.ofDelivery limitedRequest (some place) delivery).reads (slowPolls before after) =
          transcript.pulls ∧
        transcript.pulls[3]?.map Pull.after = some after ∧
        transcript.pulls.map Pull.item =
          [.chunk { payload := .null, usage := some ⟨4, 6⟩ }, .chunk { payload := .null },
            .error (.server 500 "broken"), .ended, .ended] ∧
        transcript.pulls.map (fun pull => pull.after.limiter.load .deployment "d1" 60) =
          [⟨1, 1, 7⟩, ⟨1, 1, 7⟩, ⟨1, 1, 7⟩, ⟨0, 1, 10⟩, ⟨0, 1, 10⟩] ∧
        transcript.pulls.map (fun pull => pull.after.limiter.load .caller "c" 60) =
          [⟨1, 1, 7⟩, ⟨1, 1, 7⟩, ⟨1, 1, 7⟩, ⟨0, 1, 10⟩, ⟨0, 1, 10⟩] ∧
        transcript.pulls.map (fun pull => pull.after.spend.map (·.waiting)) =
          [some [], some [], some [],
            some [{ caller := some "c", deployment := "d1", model := "m", tokens := 10 }],
            some [{ caller := some "c", deployment := "d1", model := "m", tokens := 10 }]] ∧
        brokenUpstream = .after chunks rest ∧ transcript.closing.item = .ended := by
  have hCalling : ∃ call, limitedOpening.2.phase = .calling call := ⟨_, rfl⟩
  obtain ⟨call, hCall⟩ := hCalling
  have hAnswered : ∃ place delivery,
      (reportingRouter.reserveCaller limitedRequest 0).2 = .ok (some place) ∧
        (limitedOpening.2.answer limitedOpening.1 10 brokenUpstream.opened).2.phase =
          .finished (.ok delivery) ∧
        ∃ after,
          let pulls := (Reader.ofDelivery limitedOpening.2.request (some place) delivery).reads
            (slowPolls (limitedOpening.2.answer limitedOpening.1 10 brokenUpstream.opened).1 after)
          pulls[3]?.map Pull.after = some after ∧
          pulls.map Pull.item =
            [.chunk { payload := .null, usage := some ⟨4, 6⟩ }, .chunk { payload := .null },
              .error (.server 500 "broken"), .ended, .ended] ∧
          pulls.map (fun pull => pull.after.limiter.load .deployment "d1" 60) =
            [⟨1, 1, 7⟩, ⟨1, 1, 7⟩, ⟨1, 1, 7⟩, ⟨0, 1, 10⟩, ⟨0, 1, 10⟩] ∧
          pulls.map (fun pull => pull.after.limiter.load .caller "c" 60) =
            [⟨1, 1, 7⟩, ⟨1, 1, 7⟩, ⟨1, 1, 7⟩, ⟨0, 1, 10⟩, ⟨0, 1, 10⟩] ∧
          pulls.map (fun pull => pull.after.spend.map (·.waiting)) =
            [some [], some [], some [],
              some [{ caller := some "c", deployment := "d1", model := "m", tokens := 10 }],
              some [{ caller := some "c", deployment := "d1", model := "m", tokens := 10 }]] :=
    ⟨_, _, rfl, rfl, _, rfl, rfl, rfl, rfl, rfl⟩
  obtain ⟨place, delivery, hPlace, hServed, after, hAfter, hItems, hDeployment, hCaller, hSpend⟩ :=
    hAnswered
  obtain ⟨hTells, hEnds⟩ := delivers_faithfully hCall hServed (some place) (slowPolls _ after)
  obtain ⟨transcript, chunks, rest, hReads, hSource, _, _, hClosing, _⟩ :=
    hTells (hEnds _ rfl (Nat.le_refl _))
  rw [hReads] at hAfter hItems hDeployment hCaller hSpend
  exact ⟨place, delivery, _, after, transcript, chunks, rest, hPlace, rfl, hServed, hReads, hAfter,
    hItems, hDeployment, hCaller, hSpend, hSource, hClosing⟩

end RoutedStream

end DeploymentRouting
