import DeploymentRouting.Proofs.Dispatch.Trace
import DeploymentRouting.Proofs.Gateway.Places
import DeploymentRouting.Proofs.Limiter.Occupancy
/-!
No place is lost. Every session has the places that its state shows, whatever the others do
and whatever is registered or removed meanwhile. Since a session shows at most one place for
each party, and none when it is over, the counter of a key is the number of sessions that show
a place on it.
-/
namespace DeploymentRouting

namespace Session

variable {β : Type} {router : Router} {session : Session β}

/-- A session that is over has no place. -/
theorem place?_of_isOver (h : session.isOver = true) (party : Party) :
    session.place? party = none := by
  cases session with
  | done => rfl
  | reading stream => exact if_pos h
  | whole route => cases h
  | opening route => cases h

theorem isOver_begin (streamed : Bool) (request : Request) (now : Instant)
    (h : (begin (β := β) router streamed request now).2.2.isFinal = true) :
    (begin (β := β) router streamed request now).2.1.isOver = true := by
  unfold begin at h ⊢
  split at h <;> split at h <;> simp_all [Reply.isFinal, isOver]

/-- A session is over when its owner drops it or has its last reply, and it stays so. -/
theorem isOver_act (move : Move β)
    (h : move = .drop ∨ (session.act router now move).2.2.isFinal = true ∨
      session.isOver = true) : (session.act router now move).2.1.isOver = true := by
  cases session with
  | done => cases move <;> rfl
  | whole route =>
      cases move with
      | drop => rfl
      | finish =>
          simp only [act] at h ⊢
          split at h <;> simp_all [Reply.isFinal, isOver]
      | _ => simp [act, Reply.isFinal, isOver] at h
  | opening route =>
      cases move with
      | drop => rfl
      | finish =>
          simp only [act] at h ⊢
          split at h <;> simp_all [Reply.isFinal, isOver]
      | _ => simp [act, Reply.isFinal, isOver] at h
  | reading stream =>
      cases move with
      | drop => rfl
      | read arrival =>
          simp only [act, isOver] at h ⊢
          cases hCloses : stream.closesOn arrival with
          | true =>
              rw [RoutedStream.read_closing hCloses]
              rfl
          | false =>
              obtain ⟨_, _, hPhase, hEnded⟩ := RoutedStream.read_open hCloses router now
              rw [hPhase]
              rcases h with hDrop | hFinal | hOver
              · cases hDrop
              · refine hEnded ?_
                unfold Reply.isFinal at hFinal
                split at hFinal <;> simp_all
              · exact hOver
      | _ => simpa [act, Reply.isFinal] using h

end Session

namespace Limiter.Log

/-- To forget keys changes cells and leaves all places out. -/
theorem performAll_forget (log : Log) (ids : List String) :
    (log.performAll (ids.map Move.forget)).limiter = log.limiter.forgetAll ids ∧
      ∀ holder party, (log.performAll (ids.map Move.forget)).outOf holder party =
        log.outOf holder party := by
  induction ids generalizing log with
  | nil => exact ⟨rfl, fun _ _ => rfl⟩
  | cons id ids ih =>
      obtain ⟨hLimiter, hOut⟩ := ih (log.perform (.forget id))
      exact ⟨hLimiter, hOut⟩

end Limiter.Log

namespace Gateway

variable {β : Type} {settings : Settings} {gateway : Gateway β}

/-- The log is that of the limiter in use, and every session has the places that it shows. -/
structure Balanced (settings : Settings) (gateway : Gateway β) : Prop where
  limiter : (gateway.log settings).limiter = gateway.router.limiter
  places : ∀ number party, (gateway.log settings).outOf number party =
    (gateway.sessions[number]?.bind (Session.place? party)).toList

theorem log_append (gateway : Gateway β) (router : Router) (sessions : List (Session β))
    (moves : List Limiter.Move) :
    log settings ⟨router, sessions, gateway.history ++ moves⟩ =
      (gateway.log settings).performAll moves :=
  Limiter.Log.performAll_append ..

/-- A new session gets a number that nobody had before, so nothing is out with it yet. -/
theorem Balanced.begin (h : Balanced settings gateway) (streamed : Bool) (request : Request)
    (now : Instant) : Balanced settings (gateway.begin streamed request now) := by
  have hNone : ∀ party, (gateway.log settings).outOf gateway.sessions.length party = [] := by
    intro party
    rw [h.places]
    simp
  have hLeads := Session.leadsTo_begin (β := β) h.limiter hNone streamed request now
  refine ⟨?_, fun number party => ?_⟩
  · rw [Gateway.begin, log_append]
    exact hLeads.limiter
  · rw [Gateway.begin, log_append]
    dsimp only
    by_cases hNew : number = gateway.sessions.length
    · subst hNew
      rw [List.getElem?_append_right (Nat.le_refl _), Nat.sub_self]
      exact hLeads.places party
    · refine (hLeads.others number hNew party).trans ((h.places number party).trans ?_)
      rcases Nat.lt_or_ge number gateway.sessions.length with hOld | hBeyond
      · rw [List.getElem?_append_left hOld]
      · have hBeyondToo : (gateway.sessions ++ [(Session.begin gateway.router streamed request
            now).2.1]).length ≤ number := by
          rw [List.length_append, List.length_singleton]
          omega
        rw [List.getElem?_eq_none hBeyond, List.getElem?_eq_none hBeyondToo]

/-- A move of a session keeps the places in balance with the log. -/
theorem Balanced.act (h : Balanced settings gateway) (number : Nat) (move : Session.Move β)
    (now : Instant) : Balanced settings (gateway.act number move now) := by
  unfold Gateway.act
  split
  next => exact h
  next session hSession =>
    have hPlaces : ∀ party, (gateway.log settings).outOf number party =
        (session.place? party).toList := by
      intro party
      rw [h.places, hSession]
      rfl
    have hLeads := Session.leadsTo_act h.limiter hPlaces move now
    refine ⟨?_, fun other party => ?_⟩
    · rw [log_append]
      exact hLeads.limiter
    · rw [log_append]
      dsimp only
      by_cases hSame : other = number
      · subst hSame
        obtain ⟨hLt, _⟩ := List.getElem?_eq_some_iff.mp hSession
        rw [List.getElem?_set_self hLt]
        exact hLeads.places party
      · rw [List.getElem?_set_ne (Ne.symm hSame)]
        exact (hLeads.others other hSame party).trans (h.places other party)

/-- So does what is managed between moves. -/
theorem Balanced.manage (h : Balanced settings gateway) {router : Router} {ids : List String}
    (hLimiter : router.limiter = gateway.router.limiter.forgetAll ids) :
    Balanced settings
      { gateway with router, history := gateway.history ++ ids.map Limiter.Move.forget } := by
  obtain ⟨hForgotten, hOut⟩ := Limiter.Log.performAll_forget (gateway.log settings) ids
  refine ⟨?_, fun number party => ?_⟩
  · rw [log_append, hLimiter, ← h.limiter]
    exact hForgotten
  · rw [log_append]
    exact (hOut number party).trans (h.places number party)

/-- So places and log are in balance however the gateway is run. -/
theorem Reachable.balanced (h : Reachable settings gateway) : Balanced settings gateway := by
  induction h with
  | start => exact ⟨rfl, fun _ _ => rfl⟩
  | manage prior router ids hLimiter ih => exact ih.manage hLimiter
  | begin prior streamed request now ih => exact ih.begin streamed request now
  | act prior number move now ih => exact ih.act number move now

theorem countOn_out (grants : List Limiter.Grant) (party : Party) (key : String) :
    Admission.countOn ((grants.filter Limiter.Grant.isOut).map Limiter.Grant.admission) party
        key =
      grants.countP fun grant => grant.admission.isOn party key && grant.isOut := by
  rw [Admission.countOn, List.countP_map, List.countP_filter]
  rfl

theorem countP_holder {grants : List Limiter.Grant} {holder : Nat} {party : Party}
    {place : Option Admission} (key : String)
    (hPlace : (grants.filter (Limiter.Grant.isOutWith holder party)).map
      Limiter.Grant.admission = place.toList) :
    (grants.countP fun grant =>
        (grant.admission.isOn party key && grant.isOut) && grant.holder == holder) =
      if place.any (·.isOn party key) then 1 else 0 := by
  have hCount := congrArg (List.countP fun admission => admission.isOn party key) hPlace
  rw [List.countP_map, List.countP_filter] at hCount
  have hSame : ∀ grant : Limiter.Grant,
      ((grant.admission.isOn party key && grant.isOut) && grant.holder == holder) =
        (grant.admission.isOn party key && grant.isOutWith holder party) := by
    intro grant
    by_cases hParty : grant.admission.party = party
    · simp [Limiter.Grant.isOutWith, hParty, Bool.and_assoc]
    · have hOther : (grant.admission.party == party) = false := beq_eq_false_iff_ne.mpr hParty
      simp [Limiter.Grant.isOutWith, Admission.isOn, hOther]
  rw [List.countP_congr fun grant _ => by rw [hSame grant]]
  refine hCount.trans ?_
  cases place <;> simp [List.countP_cons]

/-- If every holder has the places that its session shows, those that are out on a key are as
many as the sessions that show one. The sessions are numbered from `start` on. -/
theorem countOn_eq_countP (sessions : List (Session β)) (start : Nat)
    (grants : List Limiter.Grant) (party : Party) (key : String)
    (hFrom : ∀ grant ∈ grants, grant.isOut = true → grant.admission.party = party →
      start ≤ grant.holder)
    (hPlaces : ∀ number,
      (grants.filter (Limiter.Grant.isOutWith (start + number) party)).map
          Limiter.Grant.admission =
        (sessions[number]?.bind (Session.place? party)).toList) :
    (grants.countP fun grant => grant.admission.isOn party key && grant.isOut) =
      sessions.countP (·.holds party key) := by
  induction sessions generalizing start grants with
  | nil =>
      refine List.countP_eq_zero.mpr fun grant hMem hOn => ?_
      obtain ⟨hOn, hOut⟩ := Bool.and_eq_true_iff.mp hOn
      have hParty := (Admission.isOn_iff.mp hOn).1
      have hNone := hPlaces (grant.holder - start)
      rw [Nat.add_sub_cancel' (hFrom grant hMem hOut hParty)] at hNone
      have hWith : grant ∈ grants.filter (Limiter.Grant.isOutWith grant.holder party) :=
        List.mem_filter.mpr ⟨hMem, by simp [Limiter.Grant.isOutWith, hOut, hParty]⟩
      rw [List.map_eq_nil_iff.mp hNone] at hWith
      cases hWith
  | cons session sessions ih =>
      -- The first session is the holder `start`. Without its grants the others are numbered from
      -- the next one on.
      have hRest := ih (start + 1) (grants.filter fun grant => !(grant.holder == start)) ?_ ?_
      · have hHere := countP_holder key (hPlaces 0)
        rw [Nat.add_zero] at hHere
        rw [List.countP_eq_countP_filter_add _ _ fun grant => grant.holder == start,
          List.countP_filter, hRest, hHere, List.countP_cons, Nat.add_comm]
        rfl
      · intro grant hMem hOut hParty
        obtain ⟨hIn, hOther⟩ := List.mem_filter.mp hMem
        have hLe := hFrom grant hIn hOut hParty
        have hNe : grant.holder ≠ start := by simpa using hOther
        omega
      · intro number
        rw [List.filter_filter]
        refine Eq.trans ?_ (hPlaces (number + 1))
        refine congrArg (List.map Limiter.Grant.admission) (List.filter_congr fun grant _ => ?_)
        have hNumber : start + 1 + number = start + (number + 1) := by omega
        rw [hNumber]
        cases hWith : Limiter.Grant.isOutWith (start + (number + 1)) party grant with
        | false => simp
        | true =>
            simp only [Limiter.Grant.isOutWith, Bool.and_eq_true, beq_iff_eq] at hWith
            have hNe : grant.holder ≠ start := by omega
            simp [hNe]

/-- A session has one place of each party at most. -/
theorem Balanced.outOf_length_le (h : Balanced settings gateway) (number : Nat) (party : Party) :
    ((gateway.log settings).outOf number party).length ≤ 1 := by
  rw [h.places]
  cases gateway.sessions[number]?.bind (Session.place? party) <;> simp

/-- All that was granted to a session that is over has come back. -/
theorem Balanced.returned_of_isOver (h : Balanced settings gateway) {number : Nat}
    {session : Session β} (hSession : gateway.sessions[number]? = some session)
    (hOver : session.isOver = true) :
    ∀ grant ∈ (gateway.log settings).grants, grant.holder = number →
      grant.returned.isSome = true := by
  rintro grant hMem rfl
  have hNone := h.places grant.holder grant.admission.party
  rw [hSession, Option.bind_some, Session.place?_of_isOver hOver] at hNone
  have hIn : grant ∉ (gateway.log settings).grants.filter
      (Limiter.Grant.isOutWith grant.holder grant.admission.party) := by
    rw [List.map_eq_nil_iff.mp hNone]
    exact List.not_mem_nil
  have hReturned : grant.returned ≠ none := by
    simpa [hMem, Limiter.Grant.isOutWith, Limiter.Grant.isOut] using hIn
  exact Option.isSome_iff_ne_none.mpr hReturned

/-- In flight on a key are as many calls as there are sessions that hold a place on it. -/
theorem Balanced.inFlight_eq (h : Balanced settings gateway) (party : Party) (key : String)
    (now : Instant) :
    (gateway.router.limiter.load party key now).inFlight =
      gateway.sessions.countP (·.holds party key) := by
  have hSound : (gateway.log settings).Sound := Limiter.Log.sound_run ..
  rw [← h.limiter, hSound.accounts.load_inFlight]
  refine (countOn_out ..).trans (countOn_eq_countP gateway.sessions 0 _ party key ?_ ?_)
  · exact fun grant _ _ _ => Nat.zero_le _
  · intro number
    rw [Nat.zero_add]
    exact h.places number party

/-- No place is lost on any way through the router. A session has at most one place on a
deployment and one for its caller at a time, and it is over with its last reply or when it is
dropped. Every place that a session was granted has come back when it is over, and only once,
since the log that says so is that of the limiter in use. The counter of a key is the number of
sessions that show a place on it, so that all counters are at zero when all sessions are over. -/
theorem Reachable.places_returned (h : Reachable settings gateway) :
    (gateway.log settings).limiter = gateway.router.limiter ∧
      (∀ number party, ((gateway.log settings).outOf number party).length ≤ 1) ∧
      (∀ streamed request now,
        (Session.begin (β := β) gateway.router streamed request now).2.2.isFinal = true →
        (Session.begin (β := β) gateway.router streamed request now).2.1.isOver = true) ∧
      (∀ (session : Session β) (move : Session.Move β) (now : Instant),
        move = .drop ∨ (session.act gateway.router now move).2.2.isFinal = true ∨
          session.isOver = true →
        (session.act gateway.router now move).2.1.isOver = true) ∧
      (∀ number session, gateway.sessions[number]? = some session → session.isOver = true →
        ∀ grant ∈ (gateway.log settings).grants, grant.holder = number →
          grant.returned.isSome = true) ∧
      (∀ party key now, (gateway.router.limiter.load party key now).inFlight =
        gateway.sessions.countP (·.holds party key)) ∧
      ((∀ session ∈ gateway.sessions, session.isOver = true) → ∀ party key now,
        (gateway.router.limiter.load party key now).inFlight = 0) := by
  have hBalanced := h.balanced
  refine ⟨hBalanced.limiter, hBalanced.outOf_length_le,
    fun streamed request now => Session.isOver_begin streamed request now,
    fun session move now hLast => Session.isOver_act move hLast,
    fun number session hSession hOver => hBalanced.returned_of_isOver hSession hOver,
    hBalanced.inFlight_eq, fun hOver party key now => ?_⟩
  rw [hBalanced.inFlight_eq]
  refine List.countP_eq_zero.mpr fun session hMem hHolds => ?_
  rw [Session.holds, Session.place?_of_isOver (hOver session hMem)] at hHolds
  cases hHolds

def sharedRouter : Router :=
  { pairRouter with callerLimits := Table.ofList [("c", { parallel := some 1 })] }

/-- The first request is dropped in its call. The second one reads a stream, and the place it
has on its deployment is the only one that is out. -/
def sharedGateway : Gateway Unit :=
  let called := (((Gateway.begin { router := sharedRouter } false
    { model := "m", payload := .null, caller := some "c", deadline := 100, estimate := 5 } 0).act
      0 (.step {}) 1).act 0 (.step {}) 2).act 0 (.step {}) 3
  let calledToo := (((called.begin true { model := "m", payload := .null, deadline := 100 } 4).act
    1 (.step {}) 5).act 1 (.step {}) 6).act 1 (.step {}) 7
  let opened := (calledToo.act 0 .drop 10).act 1
    (.answerStream (.success (some { payload := .null }, ()))) 20
  (opened.act 1 .finish 21).act 1 (.read .ended) 22

theorem Reachable.places_returned_shared :
    Reachable { strategy := .roundRobin } sharedGateway ∧
      (∀ grant ∈ (sharedGateway.log { strategy := .roundRobin }).grants, grant.holder = 0 →
        grant.returned.isSome = true) ∧
      (sharedGateway.router.limiter.load .caller "c" 50).inFlight = 0 ∧
      (sharedGateway.router.limiter.load .deployment "d1" 50).inFlight = 0 ∧
      (sharedGateway.router.limiter.load .deployment "d2" 50).inFlight = 1 := by
  have hStart : Reachable (β := Unit) { strategy := .roundRobin } _ := Reachable.start
  have hManaged := hStart.manage sharedRouter [] rfl
  have hCalled := (((hManaged.begin false
    { model := "m", payload := .null, caller := some "c", deadline := 100, estimate := 5 } 0).act
      0 (.step {}) 1).act 0 (.step {}) 2).act 0 (.step {}) 3
  have hCalledToo := (((hCalled.begin true { model := "m", payload := .null, deadline := 100 }
    4).act 1 (.step {}) 5).act 1 (.step {}) 6).act 1 (.step {}) 7
  have hOpened := (hCalledToo.act 0 .drop 10).act 1
    (.answerStream (.success (some { payload := .null }, ()))) 20
  have hShared : Reachable { strategy := .roundRobin } sharedGateway :=
    (hOpened.act 1 .finish 21).act 1 (.read .ended) 22
  obtain ⟨_, _, _, _, hReturned, hInFlight, _⟩ := hShared.places_returned
  have hOver : (sharedGateway.sessions[0]?.any Session.isOver) = true := by decide +kernel
  obtain ⟨session, hSession, hSessionOver⟩ := (Option.any_eq_true ..).mp hOver
  refine ⟨hShared, hReturned 0 session hSession hSessionOver, ?_, ?_, ?_⟩
  · exact (hInFlight .caller "c" 50).trans (by decide +kernel)
  · exact (hInFlight .deployment "d1" 50).trans (by decide +kernel)
  · exact (hInFlight .deployment "d2" 50).trans (by decide +kernel)

end Gateway

end DeploymentRouting
