import DeploymentRouting.Proofs.Dispatch.Candidates
import DeploymentRouting.Proofs.Selection.Eligible
/-!
What a request saw on its way. A journal notes every look for a deployment, with the router that
was looked at, the deployments that were called, and when each model of the chain was left. Like
an itinerary it is written from what shows of a request between its steps. What the request keeps
for itself, its counters and what it has tried, has to agree with the journal.
-/
namespace DeploymentRouting

universe u

/-- A look for a deployment. -/
structure Look where
  router : Router
  now : Instant
  excluded : List String
  /-- The deployment that was found. An attempt on it begins with the look. -/
  chosen? : Option Deployment

/-- What happens for one model of a chain. -/
structure Stay where
  model : String
  looks : List Look := []
  calls : List Deployment := []

/-- A stay that is over, with the router and the instant at which it ended. -/
structure Leg where
  stay : Stay
  router : Router
  now : Instant

structure Journal where
  /-- The models that the request is to go through. -/
  chain : List String
  /-- The models that it has left, in order. -/
  left : List Leg := []
  /-- The stay at the model at hand. There is none between two models. -/
  current? : Option Stay

/-- The deployments that some looks have found. -/
def Look.attempts (looks : List Look) : List Deployment := looks.filterMap Look.chosen?

/-- Their ids. -/
def Look.tried (looks : List Look) : List String := (attempts looks).map Deployment.id

def Stay.attempts (stay : Stay) : List Deployment := Look.attempts stay.looks

namespace Look

variable {looks : List Look} {look : Look} {deployment : Deployment} {id : String}

/-- An attempt is made of what a look has found. -/
theorem mem_attempts :
    deployment ∈ attempts looks ↔ ∃ look ∈ looks, look.chosen? = some deployment :=
  List.mem_filterMap

/-- Attempts come in the order of the looks. -/
theorem attempts_append (looks later : List Look) :
    attempts (looks ++ later) = attempts looks ++ attempts later := List.filterMap_append

theorem attempts_singleton (look : Look) : attempts [look] = look.chosen?.toList := by
  cases hChosen : look.chosen? <;> simp [attempts, hChosen]

theorem tried_append (looks later : List Look) :
    tried (looks ++ later) = tried looks ++ tried later := by
  rw [tried, attempts_append, List.map_append]
  rfl

/-- What a look has found has been tried from then on. -/
theorem tried_found (h : look.chosen? = some deployment) :
    tried (looks ++ [look]) = tried looks ++ [deployment.id] := by
  rw [tried_append, tried, tried, attempts_singleton, h]
  rfl

/-- A look that finds nothing adds nothing to what has been tried. -/
theorem tried_missed (h : look.chosen? = none) : tried (looks ++ [look]) = tried looks := by
  rw [tried_append, tried, tried, attempts_singleton, h]
  exact List.append_nil _

/-- If not all looks have found something there is a first one that has not. -/
theorem all_found_or_first_missed (looks : List Look) :
    (∀ look ∈ looks, look.chosen?.isSome = true) ∨
      ∃ first missed rest, looks = first ++ missed :: rest ∧
        (∀ look ∈ first, look.chosen?.isSome = true) ∧ missed.chosen? = none := by
  induction looks with
  | nil => exact .inl (List.forall_mem_nil _)
  | cons look looks ih =>
      cases hChosen : look.chosen? with
      | none => exact .inr ⟨[], look, looks, rfl, List.forall_mem_nil _, hChosen⟩
      | some deployment =>
          have hFound : look.chosen?.isSome = true := hChosen ▸ rfl
          obtain hAll | ⟨first, missed, rest, hLooks, hFirst, hMissed⟩ := ih
          · exact .inl (List.forall_mem_cons.mpr ⟨hFound, hAll⟩)
          · exact .inr ⟨look :: first, missed, rest, congrArg (look :: ·) hLooks,
              List.forall_mem_cons.mpr ⟨hFound, hFirst⟩, hMissed⟩

end Look

namespace Journal

variable {α : Type u}

def stays (journal : Journal) : List Stay := journal.left.map Leg.stay ++ journal.current?.toList

/-- The looks for a deployment of the model at hand. -/
def looks (journal : Journal) : List Look := (journal.current?.map Stay.looks).getD []

def enter (journal : Journal) (model : String) : Journal :=
  { journal with current? := some { model } }

def look (journal : Journal) (look : Look) : Journal :=
  { journal with
    current? := journal.current?.map fun stay => { stay with looks := stay.looks ++ [look] } }

def call (journal : Journal) (deployment : Deployment) : Journal :=
  { journal with
    current? := journal.current?.map fun stay => { stay with calls := stay.calls ++ [deployment] } }

def leave (journal : Journal) (router : Router) (now : Instant) : Journal :=
  { journal with
    left := journal.left ++ (journal.current?.map fun stay => ⟨stay, router, now⟩).toList
    current? := none }

/-- A journal on its first page. -/
def begin (router : Router) (request : Request) : Journal where
  chain := router.fallbacks.chain (router.registry.resolve request.model)
    router.settings.maxFallbackDepth
  current? := some { model := router.registry.resolve request.model }

/-- The journal after a step that was made on a router. A model that is passed over is left as
soon as it has been entered. -/
def observe (journal : Journal) (router : Router) (now : Instant) (before after : Dispatch α) :
    Journal :=
  match before.phase, after.phase with
  | .entering, .entering =>
      before.ahead.head?.elim journal fun model => (journal.enter model).leave router now
  | .entering, .checking => journal.enter after.entry
  | .checking, .entering => journal.leave router now
  | .selecting looked, .reserving _ deployment =>
      journal.look ⟨router, looked, before.exclusions, some deployment⟩
  | .selecting looked, .checking => journal.look ⟨router, looked, before.exclusions, none⟩
  | .selecting looked, .entering =>
      (journal.look ⟨router, looked, before.exclusions, none⟩).leave router looked
  | .reserving _ _, .calling call => journal.call call.deployment
  | _, _ => journal

variable {journal : Journal} {stay : Stay}

theorem looks_of_current (h : journal.current? = some stay) : journal.looks = stay.looks := by
  rw [looks, h]
  rfl

theorem looks_of_none (h : journal.current? = none) : journal.looks = [] := by
  rw [looks, h]
  rfl

/-- The stays of a journal are those that it has left and the one that goes on. -/
theorem mem_stays :
    stay ∈ journal.stays ↔ (∃ leg ∈ journal.left, leg.stay = stay) ∨
      journal.current? = some stay := by
  rw [stays, List.mem_append, List.mem_map, Option.mem_toList]

/-- A model that is entered begins a new stay behind all others. -/
theorem stays_enter (h : journal.current? = none) (model : String) :
    (journal.enter model).stays = journal.stays ++ [({ model } : Stay)] := by
  simp [stays, enter, h]

/-- To leave a model closes its stay and keeps it. -/
@[simp] theorem stays_leave (journal : Journal) (router : Router) (now : Instant) :
    (journal.leave router now).stays = journal.stays := by
  cases h : journal.current? <;> simp [stays, leave, h]

/-- Whatever is noted in a journal, the chain stays the one that it began with. -/
@[simp] theorem chain_observe (journal : Journal) (router : Router) (now : Instant)
    (before after : Dispatch α) :
    (journal.observe router now before after).chain = journal.chain := by
  unfold observe
  split
  next => cases before.ahead.head? <;> rfl
  all_goals rfl

theorem current_look (h : journal.current? = some stay) (look : Look) :
    (journal.look look).current? = some { stay with looks := stay.looks ++ [look] } := by
  rw [Journal.look, h]
  rfl

theorem current_call (h : journal.current? = some stay) (deployment : Deployment) :
    (journal.call deployment).current? =
      some { stay with calls := stay.calls ++ [deployment] } := by
  rw [Journal.call, h]
  rfl

/-- What holds of all stays goes on to hold when the one at hand is replaced. -/
theorem forall_stays_of_current {holds : Stay → Prop} {after : Journal}
    (h : ∀ stay ∈ journal.stays, holds stay) (hLeft : after.left = journal.left)
    (hCurrent : ∀ stay, after.current? = some stay → holds stay) :
    ∀ stay ∈ after.stays, holds stay := by
  intro stay hMem
  rcases mem_stays.mp hMem with hEarlier | hNow
  · exact h stay (mem_stays.mpr (.inl (hLeft ▸ hEarlier)))
  · exact hCurrent stay hNow

end Journal

/-! ## What a look tells -/

/-- Nothing that may be chosen for a name can serve. -/
def Router.NoneServes (router : Router) (model : String) (excluded : List String) (cost : Nat)
    (now : Instant) : Prop :=
  ∀ tier ∈ router.registry.candidates (router.registry.resolve model), ∀ deployment ∈ tier,
    ¬router.CanServe excluded cost now deployment

/-- A choice finds nothing exactly when none of the candidates can serve. -/
theorem Router.noneServes_iff {router : Router} {model : String} {excluded : List String}
    {cost : Nat} {now : Instant} {random : RandomSource} :
    (router.select model excluded cost now random).1 = .noneEligible ↔
      router.NoneServes model excluded cost now :=
  Selection.select_noneEligible_iff.trans live_candidates_eq_nil_iff

/-- A look in accordance with those before it. As long as they all have found something it leaves
out what they have found, and afterwards only what the request leaves out. -/
structure Look.Follows (request : Request) (model : String) (earlier : List Look) (look : Look) :
    Prop where
  excluded : ∀ id, id ∈ look.excluded ↔ id ∈ request.excluded ∨
    (∀ prior ∈ earlier, prior.chosen?.isSome = true) ∧ id ∈ Look.tried earlier
  serves : ∀ deployment, look.chosen? = some deployment →
    look.router.CanServe look.excluded request.estimate look.now deployment
  missed : look.chosen? = none →
    look.router.NoneServes model look.excluded request.estimate look.now

/-- A stay all of whose looks follow each other, and where only what was found is called. -/
structure Stay.Sound (request : Request) (stay : Stay) : Prop where
  looks : ∀ earlier look later, stay.looks = earlier ++ look :: later →
    look.Follows request stay.model earlier
  calls : ∀ deployment ∈ stay.calls, deployment ∈ stay.attempts

namespace Stay.Sound

variable {request : Request} {stay : Stay}

/-- A stay begins sound, since nothing has been looked at. -/
theorem fresh (request : Request) (model : String) : Stay.Sound request { model } where
  looks earlier look later hLooks := by simp at hLooks
  calls := List.forall_mem_nil _

/-- It stays sound with a look that follows those before it. -/
theorem look (h : stay.Sound request) {next : Look}
    (hNext : next.Follows request stay.model stay.looks) :
    Stay.Sound request { stay with looks := stay.looks ++ [next] } where
  looks earlier other later hLooks := by
    -- The look at issue is the new one, or there is the same split without it.
    rcases List.eq_nil_or_concat later with rfl | ⟨rest, last, rfl⟩
    · obtain ⟨hEarlier, hLast⟩ := List.append_inj' hLooks rfl
      rw [← List.singleton_inj.mp hLast, ← hEarlier]
      exact hNext
    · rw [List.concat_eq_append, ← List.cons_append, ← List.append_assoc] at hLooks
      exact h.looks earlier other rest (List.append_inj' hLooks rfl).1
  calls deployment hMem := by
    rw [attempts, Look.attempts_append]
    exact List.mem_append_left _ (h.calls deployment hMem)

/-- It stays sound with a call of what has been attempted. -/
theorem call (h : stay.Sound request) {deployment : Deployment}
    (hMem : deployment ∈ stay.attempts) :
    Stay.Sound request { stay with calls := stay.calls ++ [deployment] } where
  looks := h.looks
  calls other hOther := by
    rcases List.mem_append.mp hOther with hEarlier | hLast
    · exact h.calls other hEarlier
    · rw [List.mem_singleton.mp hLast]
      exact hMem

end Stay.Sound

namespace Dispatch

variable {α : Type u} {dispatch after : Dispatch α} {journal : Journal} {request : Request}

/-! ## What a step writes -/

/-- What one step on a router makes of a request and of its journal. -/
inductive Writes (router : Router) (now : Instant) (journal : Journal) (dispatch : Dispatch α) :
    Journal → Dispatch α → Prop where
  | fail (hPhase : dispatch.phase = .entering) (hAhead : dispatch.ahead = [])
      (outcome : Except RoutingError (Delivery α)) :
      Writes router now journal dispatch journal (dispatch.finish outcome)
  | passOver {model : String} {ahead : List String} (hPhase : dispatch.phase = .entering)
      (hAhead : dispatch.ahead = model :: ahead)
      (hNone : router.registry.candidates model = []) :
      Writes router now journal dispatch ((journal.enter model).leave router now)
        { dispatch with ahead }
  | enter {model : String} {ahead : List String} (hPhase : dispatch.phase = .entering)
      (hAhead : dispatch.ahead = model :: ahead) :
      Writes router now journal dispatch (journal.enter model)
        { dispatch with ahead, entry := model, usedFallback := true, phase := .checking }
  | usedUp (hPhase : dispatch.phase = .checking)
      (hUsedUp : router.settings.maxAttempts ≤ dispatch.entryAttempts) :
      Writes router now journal dispatch (journal.leave router now) dispatch.leave
  | overdue (hPhase : dispatch.phase = .checking) :
      Writes router now journal dispatch journal
        (dispatch.finish
          (.error (.deadlineExceeded dispatch.request.model dispatch.totalAttempts)))
  | ready (hPhase : dispatch.phase = .checking) :
      Writes router now journal dispatch journal { dispatch with phase := .selecting now }
  | found {looked : Instant} {deployment : Deployment} (hPhase : dispatch.phase = .selecting looked)
      (hServes :
        router.CanServe dispatch.exclusions dispatch.request.estimate looked deployment) :
      Writes router now journal dispatch
        (journal.look ⟨router, looked, dispatch.exclusions, some deployment⟩)
        { dispatch with
          phase := .reserving looked deployment
          entryAttempts := dispatch.entryAttempts + 1
          tried := deployment.id :: dispatch.tried }
  | secondPass {looked : Instant} (hPhase : dispatch.phase = .selecting looked)
      (hNone : router.NoneServes dispatch.entry dispatch.exclusions dispatch.request.estimate
        looked) :
      Writes router now journal dispatch
        (journal.look ⟨router, looked, dispatch.exclusions, none⟩)
        { dispatch with retryPass := true, phase := .checking }
  /-- What was tried before is not left out at the last look for a model. -/
  | noneLeft {looked : Instant} (hPhase : dispatch.phase = .selecting looked)
      (hNone : router.NoneServes dispatch.entry dispatch.exclusions dispatch.request.estimate
        looked)
      (hLast : dispatch.exclusions = dispatch.request.excluded) :
      Writes router now journal dispatch
        ((journal.look ⟨router, looked, dispatch.exclusions, none⟩).leave router looked)
        dispatch.leave
  | halt {looked : Instant} (hPhase : dispatch.phase = .selecting looked) :
      Writes router now journal dispatch journal { dispatch with phase := .halted none }
  | refused {looked : Instant} {deployment : Deployment}
      (hPhase : dispatch.phase = .reserving looked deployment) :
      Writes router now journal dispatch journal { dispatch with phase := .checking }
  | call {looked : Instant} {deployment : Deployment}
      (hPhase : dispatch.phase = .reserving looked deployment) (call : PendingCall)
      (hDeployment : call.deployment = deployment) :
      Writes router now journal dispatch (journal.call deployment)
        { dispatch with entryCalls := dispatch.entryCalls + 1, phase := .calling call }
  | strand {looked : Instant} {deployment : Deployment}
      (hPhase : dispatch.phase = .reserving looked deployment) (admission : Admission) :
      Writes router now journal dispatch journal
        { dispatch with phase := .halted (some (deployment, admission)) }

/-- What is noted when a request goes on to the next model, or has none left. -/
theorem writes_enter (hPhase : dispatch.phase = .entering) (router : Router) (now : Instant)
    (journal : Journal) :
    Writes router now journal dispatch
      (journal.observe router now dispatch (dispatch.enter router)) (dispatch.enter router) := by
  unfold Dispatch.enter
  split
  next hAhead =>
    simp only [Journal.observe, hPhase, Dispatch.finish]
    exact .fail hPhase hAhead _
  next model ahead hAhead =>
    split
    next hEmpty =>
      simp only [Journal.observe, hPhase, hAhead, List.head?_cons, Option.elim_some]
      exact hPhase ▸ .passOver hPhase hAhead (List.isEmpty_iff.mp hEmpty)
    next =>
      simp only [Journal.observe, hPhase]
      exact .enter hPhase hAhead

/-- What is noted when a request looks whether attempts and time are left. -/
theorem writes_check (hPhase : dispatch.phase = .checking) (router : Router) (now : Instant)
    (journal : Journal) :
    Writes router now journal dispatch
      (journal.observe router now dispatch (dispatch.check router.settings.maxAttempts now))
      (dispatch.check router.settings.maxAttempts now) := by
  unfold Dispatch.check
  split
  next hUsedUp =>
    simp only [Journal.observe, hPhase, Dispatch.leave]
    exact .usedUp hPhase hUsedUp
  next =>
    split
    · simp only [Journal.observe, hPhase, Dispatch.finish]
      exact .overdue hPhase
    · simp only [Journal.observe, hPhase]
      exact .ready hPhase

/-- A request in the second pass, or one that has tried nothing, leaves out what it was told to
and nothing else. -/
theorem exclusions_of_noneLeft (h : (!dispatch.retryPass && !dispatch.tried.isEmpty) = false) :
    dispatch.exclusions = dispatch.request.excluded := by
  unfold exclusions
  split
  next => rfl
  next hFirst =>
    have hNone : dispatch.tried = [] := by simpa [hFirst] using h
    rw [hNone, List.append_nil]

/-- What is noted of a choice, whatever comes of it. -/
theorem writes_withSelection {looked : Instant} (hPhase : dispatch.phase = .selecting looked)
    (router : Router) (now : Instant) (random : RandomSource) (journal : Journal) :
    Writes router now journal dispatch
      (journal.observe router now dispatch (dispatch.withSelection looked
        (router.select dispatch.entry dispatch.exclusions dispatch.request.estimate looked
          random).1))
      (dispatch.withSelection looked
        (router.select dispatch.entry dispatch.exclusions dispatch.request.estimate looked
          random).1) := by
  cases hSelection : (router.select dispatch.entry dispatch.exclusions dispatch.request.estimate
      looked random).1 with
  | chosen deployment =>
      simp only [Journal.observe, hPhase, Dispatch.withSelection]
      exact .found hPhase (Router.lowest_of_select_chosen hSelection).1
  | noneEligible =>
      have hNone := Router.noneServes_iff.mp hSelection
      simp only [Dispatch.withSelection]
      split
      next =>
        simp only [Journal.observe, hPhase]
        exact .secondPass hPhase hNone
      next hLast =>
        simp only [Journal.observe, hPhase, Dispatch.leave]
        exact .noneLeft hPhase hNone (exclusions_of_noneLeft (Bool.eq_false_iff.mpr hLast))
  | overflow =>
      simp only [Journal.observe, hPhase, Dispatch.withSelection]
      exact .halt hPhase

/-- What is noted when a deployment has been asked for a place. -/
theorem writes_reserve {looked : Instant} {deployment : Deployment}
    (hPhase : dispatch.phase = .reserving looked deployment) (router : Router) (now : Instant)
    (journal : Journal) :
    Writes router now journal dispatch
      (journal.observe router now dispatch (dispatch.reserve router now looked deployment).2)
      (dispatch.reserve router now looked deployment).2 := by
  obtain ⟨_, _, _, hReserve⟩ | ⟨_, _, _, _, hReserve⟩ | ⟨_, admission, _, _, hReserve⟩ :=
    dispatch.reserve_cases router now looked deployment
  all_goals simp only [Journal.observe, hPhase, hReserve]
  · exact .refused hPhase
  · exact .call hPhase _ rfl
  · exact .strand hPhase admission

/-- Every step is one of those. -/
theorem writes_step (hActive : dispatch.isSuspended = false) (router : Router) (now : Instant)
    (random : RandomSource) (journal : Journal) :
    Writes router now journal dispatch
      (journal.observe router now dispatch (dispatch.step router now random).2)
      (dispatch.step router now random).2 := by
  unfold Dispatch.step
  cases hPhase : dispatch.phase with
  | entering => exact writes_enter hPhase router now journal
  | checking => exact writes_check hPhase router now journal
  | selecting looked => exact writes_withSelection hPhase router now random journal
  | reserving looked deployment => exact writes_reserve hPhase router now journal
  | calling call => simp [isSuspended, hPhase] at hActive
  | finished outcome => simp [isSuspended, hPhase] at hActive
  | halted stranded => simp [isSuspended, hPhase] at hActive

/-! ## What a request remembers -/

/-- What a request remembers of its looks for a deployment of the model at hand. -/
structure Remembers (looks : List Look) (dispatch : Dispatch α) : Prop where
  tried : ∀ id, id ∈ dispatch.tried ↔ id ∈ Look.tried looks
  attempts : dispatch.entryAttempts = (Look.attempts looks).length
  firstPass : dispatch.retryPass = false ↔ ∀ look ∈ looks, look.chosen?.isSome = true

/-- What the next look leaves out agrees with the looks before it. -/
theorem Remembers.mem_exclusions {looks : List Look} (h : dispatch.Remembers looks) (id : String) :
    id ∈ dispatch.exclusions ↔ id ∈ dispatch.request.excluded ∨
      (∀ prior ∈ looks, prior.chosen?.isSome = true) ∧ id ∈ Look.tried looks := by
  rw [exclusions, ← h.firstPass, ← h.tried]
  cases dispatch.retryPass <;> simp

theorem Remembers.leave (dispatch : Dispatch α) : dispatch.leave.Remembers [] where
  tried _ := Iff.rfl
  attempts := rfl
  firstPass := ⟨fun _ => List.forall_mem_nil _, fun _ => rfl⟩

/-- A deployment that is found is remembered as tried. -/
theorem Remembers.found {looks : List Look} (h : dispatch.Remembers looks) {look : Look}
    {deployment : Deployment} (hChosen : look.chosen? = some deployment)
    (hTried : after.tried = deployment.id :: dispatch.tried)
    (hAttempts : after.entryAttempts = dispatch.entryAttempts + 1)
    (hPass : after.retryPass = dispatch.retryPass) : after.Remembers (looks ++ [look]) where
  tried id := by
    rw [hTried, Look.tried_found hChosen, List.mem_cons, List.mem_append, List.mem_singleton,
      h.tried]
    exact or_comm
  attempts := by
    rw [hAttempts, h.attempts, Look.attempts_append, Look.attempts_singleton, hChosen,
      List.length_append]
    rfl
  firstPass := by
    rw [hPass, h.firstPass, List.forall_mem_append, List.forall_mem_singleton, hChosen]
    exact (and_iff_left rfl).symm

/-- A look that finds nothing is remembered as the beginning of the second pass. -/
theorem Remembers.missed {looks : List Look} (h : dispatch.Remembers looks) {look : Look}
    (hChosen : look.chosen? = none) (hTried : after.tried = dispatch.tried)
    (hAttempts : after.entryAttempts = dispatch.entryAttempts)
    (hPass : after.retryPass = true) : after.Remembers (looks ++ [look]) where
  tried id := by rw [hTried, Look.tried_missed hChosen, h.tried]
  attempts := by
    rw [hAttempts, h.attempts, Look.attempts_append, Look.attempts_singleton, hChosen]
    exact congrArg List.length (List.append_nil _).symm
  firstPass := by
    rw [hPass, List.forall_mem_append, List.forall_mem_singleton, hChosen]
    exact ⟨fun hFirst => Bool.noConfusion hFirst, fun hAll => Bool.noConfusion hAll.2⟩

/-- A request that agrees with its journal. -/
structure Agrees (request : Request) (journal : Journal) (dispatch : Dispatch α) : Prop where
  requested : dispatch.request = request
  stays : ∀ stay ∈ journal.stays, stay.Sound request
  remembers : dispatch.Remembers journal.looks
  model : ∀ stay, journal.current? = some stay → stay.model = dispatch.entry
  between : dispatch.phase = .entering → journal.current? = none
  within : dispatch.phase ≠ .entering → (∀ outcome, dispatch.phase ≠ .finished outcome) →
    ∃ stay, journal.current? = some stay
  target : ∀ deployment, dispatch.target? = some deployment →
    deployment ∈ Look.attempts journal.looks

theorem not_target (h : dispatch.target? = none) {holds : Deployment → Prop}
    (deployment : Deployment) (hTarget : dispatch.target? = some deployment) :
    holds deployment := by
  rw [h] at hTarget
  cases hTarget

namespace Agrees

/-- What the request remembers stays as it is when it ends. -/
theorem finish (h : Agrees request journal dispatch) (outcome : Except RoutingError (Delivery α)) :
    Agrees request journal (dispatch.finish outcome) where
  requested := h.requested
  stays := h.stays
  remembers := ⟨h.remembers.tried, h.remembers.attempts, h.remembers.firstPass⟩
  model := h.model
  between hEntering := by cases hEntering
  within _ hGoesOn := absurd rfl (hGoesOn outcome)
  target := not_target rfl

/-- It goes on for the same model and finds nothing new. -/
theorem goOn (h : Agrees request journal dispatch) (hWithin : ∃ stay, journal.current? = some stay)
    (hRequest : after.request = dispatch.request) (hEntry : after.entry = dispatch.entry)
    (hRemembers : after.Remembers journal.looks) (hPhase : after.phase ≠ .entering)
    (hTarget : after.target? = none) : Agrees request journal after where
  requested := hRequest.trans h.requested
  stays := h.stays
  remembers := hRemembers
  model stay hCurrent := (h.model stay hCurrent).trans hEntry.symm
  between hEntering := absurd hEntering hPhase
  within _ _ := hWithin
  target := not_target hTarget

/-- It leaves a model, whatever it remembers. -/
theorem leave (hRequest : dispatch.request = request)
    (hStays : ∀ stay ∈ journal.stays, stay.Sound request) (router : Router) (now : Instant) :
    Agrees request (journal.leave router now) dispatch.leave where
  requested := hRequest
  stays := by
    rw [Journal.stays_leave]
    exact hStays
  remembers := Remembers.leave dispatch
  model stay hCurrent := by cases hCurrent
  between _ := rfl
  within hPhase := absurd rfl hPhase
  target := not_target rfl

/-- The next look goes on from those before it. -/
theorem follows (h : Agrees request journal dispatch) {stay : Stay}
    (hCurrent : journal.current? = some stay) (router : Router) (looked : Instant)
    (chosen? : Option Deployment)
    (hServes : ∀ deployment, chosen? = some deployment →
      router.CanServe dispatch.exclusions dispatch.request.estimate looked deployment)
    (hMissed : chosen? = none →
      router.NoneServes dispatch.entry dispatch.exclusions dispatch.request.estimate looked) :
    Look.Follows request stay.model stay.looks ⟨router, looked, dispatch.exclusions, chosen?⟩ where
  excluded id := by
    rw [← h.requested, ← Journal.looks_of_current hCurrent]
    exact h.remembers.mem_exclusions id
  serves := h.requested ▸ hServes
  missed := h.requested ▸ (h.model stay hCurrent).symm ▸ hMissed

/-- A look that follows those before it keeps every stay sound. -/
theorem stays_look (h : Agrees request journal dispatch) {stay : Stay}
    (hCurrent : journal.current? = some stay) {look : Look}
    (hFollows : look.Follows request stay.model stay.looks) :
    ∀ other ∈ (journal.look look).stays, other.Sound request := by
  refine Journal.forall_stays_of_current h.stays rfl fun other hOther => ?_
  rw [← Option.some.inj ((Journal.current_look hCurrent look).symm.trans hOther)]
  exact (h.stays stay (Journal.mem_stays.mpr (.inr hCurrent))).look hFollows

/-- It notes a look and goes on for the same model. -/
theorem look (h : Agrees request journal dispatch) {stay : Stay}
    (hCurrent : journal.current? = some stay) {look : Look}
    (hFollows : look.Follows request stay.model stay.looks)
    (hRequest : after.request = dispatch.request) (hEntry : after.entry = dispatch.entry)
    (hRemembers : after.Remembers (journal.looks ++ [look])) (hPhase : after.phase ≠ .entering)
    (hTarget : after.target? = look.chosen?) : Agrees request (journal.look look) after := by
  have hNow := Journal.current_look hCurrent look
  have hLooks : (journal.look look).looks = journal.looks ++ [look] := by
    rw [Journal.looks_of_current hNow, Journal.looks_of_current hCurrent]
  constructor
  case requested => exact hRequest.trans h.requested
  case stays => exact h.stays_look hCurrent hFollows
  case remembers => exact hLooks ▸ hRemembers
  case model =>
    intro other hOther
    rw [← Option.some.inj (hNow.symm.trans hOther)]
    exact (h.model stay hCurrent).trans hEntry.symm
  case between => exact fun hEntering => absurd hEntering hPhase
  case within => exact fun _ _ => ⟨_, hNow⟩
  case target =>
    intro deployment hDeployment
    rw [hLooks]
    exact Look.mem_attempts.mpr ⟨look, List.mem_append_right _ (List.mem_singleton_self look),
      hTarget ▸ hDeployment⟩

/-- It comes to another model, with nothing tried there. -/
theorem enter (h : Agrees request journal dispatch) (hPhase : dispatch.phase = .entering)
    (model : String) (ahead : List String) :
    Agrees request (journal.enter model)
      ({ dispatch with ahead, entry := model, usedFallback := true, phase := .checking } :
        Dispatch α) where
  requested := h.requested
  stays := by
    rw [Journal.stays_enter (h.between hPhase)]
    exact List.forall_mem_append.mpr
      ⟨h.stays, List.forall_mem_singleton.mpr (.fresh request model)⟩
  remembers := by
    have hRemembers := h.remembers
    rw [Journal.looks_of_none (h.between hPhase)] at hRemembers
    exact ⟨hRemembers.tried, hRemembers.attempts, hRemembers.firstPass⟩
  model stay hCurrent := by
    cases hCurrent
    rfl
  between hEntering := by cases hEntering
  within _ _ := ⟨_, rfl⟩
  target := not_target rfl

/-- A model that is passed over leaves a stay in which nothing was looked at. -/
theorem passOver (h : Agrees request journal dispatch) (hPhase : dispatch.phase = .entering)
    (model : String) (ahead : List String) (router : Router) (now : Instant) :
    Agrees request ((journal.enter model).leave router now) { dispatch with ahead } where
  requested := h.requested
  stays := by
    rw [Journal.stays_leave]
    exact (h.enter hPhase model ahead).stays
  remembers := by
    have hRemembers := h.remembers
    rw [Journal.looks_of_none (h.between hPhase)] at hRemembers
    exact ⟨hRemembers.tried, hRemembers.attempts, hRemembers.firstPass⟩
  model stay hCurrent := by cases hCurrent
  between _ := rfl
  within hOther := absurd hPhase hOther
  target := not_target (by simp only [target?, hPhase])

/-- A place that is granted leads to a call of what was found last. -/
theorem call (h : Agrees request journal dispatch) {looked : Instant} {deployment : Deployment}
    (hPhase : dispatch.phase = .reserving looked deployment) {stay : Stay}
    (hCurrent : journal.current? = some stay) {call : PendingCall}
    (hDeployment : call.deployment = deployment) :
    Agrees request (journal.call deployment)
      ({ dispatch with entryCalls := dispatch.entryCalls + 1, phase := .calling call } :
        Dispatch α) := by
  have hNow := Journal.current_call hCurrent deployment
  have hLooks : (journal.call deployment).looks = journal.looks := by
    rw [Journal.looks_of_current hNow, Journal.looks_of_current hCurrent]
  have hFound : deployment ∈ Look.attempts journal.looks :=
    h.target deployment (by simp only [target?, hPhase])
  constructor
  case requested => exact h.requested
  case stays =>
    have hSound : stay.Sound request := h.stays stay (Journal.mem_stays.mpr (.inr hCurrent))
    have hAttempted : deployment ∈ stay.attempts := by
      rw [Stay.attempts, ← Journal.looks_of_current hCurrent]
      exact hFound
    refine Journal.forall_stays_of_current h.stays rfl fun other hOther => ?_
    rw [← Option.some.inj (hNow.symm.trans hOther)]
    exact hSound.call hAttempted
  case remembers =>
    rw [hLooks]
    exact ⟨h.remembers.tried, h.remembers.attempts, h.remembers.firstPass⟩
  case model =>
    intro other hOther
    rw [← Option.some.inj (hNow.symm.trans hOther)]
    exact h.model stay hCurrent
  case between => exact fun hEntering => by cases hEntering
  case within => exact fun _ _ => ⟨_, hNow⟩
  case target =>
    intro other hOther
    cases hOther
    rw [hLooks, hDeployment]
    exact hFound

/-- A step keeps a request and its journal together. -/
theorem writes (h : Agrees request journal dispatch) {router : Router} {now : Instant}
    {next : Journal} (hWrites : Writes router now journal dispatch next after) :
    Agrees request next after := by
  have hRemembers : ∀ other : Dispatch α, other.tried = dispatch.tried →
      other.entryAttempts = dispatch.entryAttempts → other.retryPass = dispatch.retryPass →
      other.Remembers journal.looks := fun other hTried hAttempts hPass =>
    ⟨hTried ▸ h.remembers.tried, hAttempts ▸ h.remembers.attempts,
      hPass ▸ h.remembers.firstPass⟩
  cases hWrites with
  | fail hPhase hAhead outcome => exact h.finish outcome
  | passOver hPhase hAhead hNone => exact h.passOver hPhase _ _ router now
  | enter hPhase hAhead => exact h.enter hPhase _ _
  | usedUp hPhase hUsedUp => exact .leave h.requested h.stays router now
  | overdue hPhase => exact h.finish _
  | ready hPhase | halt hPhase | refused hPhase | strand hPhase =>
      exact h.goOn (h.within (by simp [hPhase]) (by simp [hPhase])) rfl rfl
        (hRemembers _ rfl rfl rfl) (by simp) rfl
  | @found looked deployment hPhase hServes =>
      obtain ⟨stay, hCurrent⟩ := h.within (by simp [hPhase]) (by simp [hPhase])
      have hFollows := h.follows hCurrent router looked (some deployment)
        (fun other hOther => Option.some.inj hOther ▸ hServes) fun hMissed => by cases hMissed
      exact h.look hCurrent hFollows rfl rfl (h.remembers.found rfl rfl rfl rfl) (by simp) rfl
  | @secondPass looked hPhase hNone =>
      obtain ⟨stay, hCurrent⟩ := h.within (by simp [hPhase]) (by simp [hPhase])
      have hFollows := h.follows hCurrent router looked none (fun other hOther => by cases hOther)
        fun _ => hNone
      exact h.look hCurrent hFollows rfl rfl (h.remembers.missed rfl rfl rfl rfl) (by simp) rfl
  | @noneLeft looked hPhase hNone hLast =>
      obtain ⟨stay, hCurrent⟩ := h.within (by simp [hPhase]) (by simp [hPhase])
      have hFollows := h.follows hCurrent router looked none (fun other hOther => by cases hOther)
        fun _ => hNone
      exact .leave h.requested (h.stays_look hCurrent hFollows) router looked
  | call hPhase call hDeployment =>
      obtain ⟨stay, hCurrent⟩ := h.within (by simp [hPhase]) (by simp [hPhase])
      exact h.call hPhase hCurrent hDeployment

/-- A call that fails is not noted either, whether the request goes on or ends. -/
theorem fail (h : Agrees request journal dispatch) {call : PendingCall}
    (hCall : dispatch.phase = .calling call) (router : Router) (now : Instant)
    (error : BackendError) : Agrees request journal (dispatch.fail router now call error).2 := by
  have hWithin : ∃ stay, journal.current? = some stay :=
    h.within (by simp [hCall]) (by simp [hCall])
  unfold Dispatch.fail
  split
  · exact h.goOn hWithin rfl rfl
      ⟨h.remembers.tried, h.remembers.attempts, h.remembers.firstPass⟩ (by simp) rfl
  · exact h.finish _

/-- So does the end of a call, which is not noted. -/
theorem answer (h : Agrees request journal dispatch) {call : PendingCall}
    (hCall : dispatch.phase = .calling call) (router : Router) (now : Instant)
    (ended : CallEnd α) : Agrees request journal (dispatch.answer router now ended).2 := by
  simp only [Dispatch.answer, hCall]
  cases ended with
  | success value => exact h.finish _
  | failure error => exact h.fail hCall router now error
  | cutOff =>
      simp only [Dispatch.cutOff]
      split
      · exact h.finish _
      · exact h.fail hCall router now _

/-- A journal begins in agreement with its request. -/
theorem begin (router : Router) (request : Request) (now : Instant) :
    Agrees request (Journal.begin router request)
      (Dispatch.begin router request now : Dispatch α) := by
  have hStays : ∀ stay ∈ (Journal.begin router request).stays, stay.Sound request :=
    List.forall_mem_singleton.mpr (.fresh request _)
  have hModel : ∀ stay, (Journal.begin router request).current? = some stay →
      stay.model = router.registry.resolve request.model := by
    intro stay hCurrent
    cases hCurrent
    rfl
  have hRemembers (dispatch : Dispatch α) (hTried : dispatch.tried = [])
      (hAttempts : dispatch.entryAttempts = 0) (hPass : dispatch.retryPass = false) :
      dispatch.Remembers (Journal.begin router request).looks :=
    ⟨fun _ => hTried ▸ Iff.rfl, hAttempts, ⟨fun _ => List.forall_mem_nil _, fun _ => hPass⟩⟩
  simp only [Dispatch.begin]
  split
  · exact {
      requested := rfl
      stays := hStays
      remembers := hRemembers _ rfl rfl rfl
      model := hModel
      between := fun hEntering => by cases hEntering
      within := fun _ hGoesOn => absurd rfl (hGoesOn _)
      target := not_target rfl }
  · exact {
      requested := rfl
      stays := hStays
      remembers := hRemembers _ rfl rfl rfl
      model := hModel
      between := fun hEntering => by cases hEntering
      within := fun _ _ => ⟨_, rfl⟩
      target := not_target rfl }

end Agrees

/-! ## Journeys -/

/-- Requests on their way, with their journals, on a router of some settings. All else may be
different at each step, since others act on the router in between. -/
inductive Journey (settings : Settings) (request : Request) : Journal → Dispatch α → Prop where
  | begin (router : Router) (hSettings : router.settings = settings) (now : Instant) :
      Journey settings request (Journal.begin router request) (begin router request now)
  | step {journal : Journal} {dispatch : Dispatch α}
      (prior : Journey settings request journal dispatch)
      (hActive : dispatch.isSuspended = false)
      (router : Router) (hSettings : router.settings = settings) (now : Instant)
      (random : RandomSource) :
      Journey settings request
        (journal.observe router now dispatch (dispatch.step router now random).2)
        (dispatch.step router now random).2
  | answer {journal : Journal} {dispatch : Dispatch α} {call : PendingCall}
      (prior : Journey settings request journal dispatch)
      (hCall : dispatch.phase = .calling call)
      (router : Router) (hSettings : router.settings = settings) (now : Instant)
      (ended : CallEnd α) :
      Journey settings request journal (dispatch.answer router now ended).2

/-- Steps of a request that is left alone with its router, up to the next call or the end. -/
def follow (router : Router) (now : Instant) (random : RandomSource) :
    Nat → Journal × Dispatch α → Journal × Dispatch α
  | 0, state => state
  | fuel + 1, (journal, dispatch) =>
      if dispatch.isSuspended then (journal, dispatch)
      else
        let after := (dispatch.step router now random).2
        follow router now random fuel (journal.observe router now dispatch after, after)

/-- A journey goes on for as many steps as it is given, with nobody else in between. -/
theorem Journey.follow {settings : Settings} (h : Journey settings request journal dispatch)
    {router : Router} (hSettings : router.settings = settings) (now : Instant)
    (random : RandomSource) (fuel : Nat) :
    Journey settings request (Dispatch.follow router now random fuel (journal, dispatch)).1
      (Dispatch.follow router now random fuel (journal, dispatch)).2 := by
  induction fuel generalizing journal dispatch with
  | zero => exact h
  | succ fuel ih =>
      unfold Dispatch.follow
      split
      next => exact h
      next hActive => exact ih (h.step (Bool.eq_false_iff.mpr hActive) router hSettings now random)

/-- All along its journey a request agrees with its journal. -/
theorem Journey.agrees {settings : Settings} (h : Journey settings request journal dispatch) :
    Agrees request journal dispatch := by
  induction h with
  | begin router hSettings now => exact .begin router request now
  | step prior hActive router hSettings now random ih =>
      exact ih.writes (writes_step hActive router now random _)
  | answer prior hCall router hSettings now ended ih => exact ih.answer hCall router now ended

end Dispatch

end DeploymentRouting
