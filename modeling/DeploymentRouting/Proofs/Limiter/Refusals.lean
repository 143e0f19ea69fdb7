import DeploymentRouting.Proofs.Limiter.Lag
/-!
Refusals and what they leave behind. A call that is refused takes no place, but it moves the
window of its key on, and a key without a cell gets one, whose windows count from then. That a
window was moved on cannot be seen by anything that comes later. That a cell was made can: the
next grant finds its window begun. Only calls that no load would let in come to a key without a
cell and are refused, and without the others every run answers as before.
-/
namespace DeploymentRouting

/-- What is refused under no load at all is refused under every load. -/
theorem Limits.refusal?_ne_none_of_empty {limits : Limits} {cost : Nat}
    (h : limits.refusal? {} cost ≠ none) (load : Load) : limits.refusal? load cost ≠ none := by
  intro hOpen
  apply h
  have hTokens : ∀ most, tokensReached most 0 cost = true →
      tokensReached most load.tokens cost = true := by
    intro most hReached
    simp only [tokensReached, Bool.or_eq_true, decide_eq_true_eq] at hReached ⊢
    simp only [Counter.add64] at hReached ⊢
    omega
  obtain ⟨requests, tokens, parallel⟩ := limits
  cases requests <;> cases tokens <;> cases parallel <;> grind [Limits.refusal?]

namespace Limiter

/-- A step on a limiter, or a reading of the counts of a key. -/
inductive Query where
  | step (move : Move)
  | look (party : Party) (key : String) (now : Instant)

/-- What is told of a query. -/
inductive Answer where
  | granted (admission : Admission)
  | refused (refusal : Refusal)
  /-- The place that came back, if the holder had one. -/
  | returned (place : Option Admission)
  /-- Whether there was a cell to drop. -/
  | forgotten (dropped : Bool)
  | read (load : Load)
deriving DecidableEq

/-- When a query is made. Dropping a cell takes no notice of the time. -/
def Query.instant? : Query → Option Instant
  | .step (.reserve _ _ _ _ _ now) | .step (.settle _ _ _ now) | .step (.abandon _ _ now)
  | .look _ _ now => some now
  | .step (.forget _) => none

namespace Log

def answer (log : Log) : Query → Answer
  | .step (.reserve _ party key limits cost now) =>
      match (log.limiter.reserve party key limits cost now).2 with
      | .ok admission => .granted admission
      | .error refusal => .refused refusal
  | .step (.settle holder party _ _) | .step (.abandon holder party _) =>
      .returned (log.outOf holder party).head?
  | .step (.forget key) => .forgotten (log.limiter.forget key).2
  | .look party key now => .read (log.limiter.load party key now)

/-- The log after a query. A reading changes nothing. -/
def ask (log : Log) : Query → Log
  | .step move => log.perform move
  | .look _ _ _ => log

end Log

/-- A query and the log that it comes to. -/
structure Moment where
  before : Log
  query : Query

namespace Moment

def answer (moment : Moment) : Answer := moment.before.answer moment.query

def isRefused (moment : Moment) : Bool :=
  match moment.answer with
  | .refused _ => true
  | _ => false

/-- Whether it is a call that is refused on a key that has a cell. -/
def isIdle (moment : Moment) : Bool :=
  match moment.query with
  | .step (.reserve _ party key _ _ _) =>
      moment.isRefused && (moment.before.limiter.cell? party key).isSome
  | _ => false

/-- The cell that a query moves on is not further behind than one move can take it. -/
def InReach (moment : Moment) : Prop :=
  match moment.query with
  | .step (.reserve _ party key _ _ now) => moment.before.limiter.InReach party key now
  | .step (.settle holder party _ now) | .step (.abandon holder party now) =>
      ∀ admission ∈ (moment.before.outOf holder party).head?,
        moment.before.limiter.InReach admission.party admission.key now
  | .step (.forget _) | .look _ _ _ => True

instance : (moment : Moment) → Decidable moment.InReach
  | ⟨log, .step (.reserve _ party key _ _ now)⟩ =>
      inferInstanceAs (Decidable (log.limiter.InReach party key now))
  | ⟨log, .step (.settle holder party _ now)⟩ | ⟨log, .step (.abandon holder party now)⟩ =>
      inferInstanceAs (Decidable (∀ admission ∈ (log.outOf holder party).head?,
        log.limiter.InReach admission.party admission.key now))
  | ⟨_, .step (.forget _)⟩ | ⟨_, .look _ _ _⟩ => inferInstanceAs (Decidable True)

end Moment

namespace Log

/-- The moments of a run. -/
def moments (log : Log) : List Query → List Moment
  | [] => []
  | query :: rest => ⟨log, query⟩ :: (log.ask query).moments rest

/-- The answers of a run. -/
def answers (log : Log) (queries : List Query) : List Answer :=
  (log.moments queries).map Moment.answer

/-- The queries of a run without the calls that are refused on a key that has a cell. -/
def withoutIdle (log : Log) (queries : List Query) : List Query :=
  ((log.moments queries).filter (!·.isIdle)).map Moment.query

/-- The log of a new limiter. -/
def opened (window : Duration) : Log := { limiter := Limiter.new window }

/-- Two logs of the same grants, one of a limiter that has refused more calls. -/
structure Ahead (last : Instant) (ahead behind : Log) : Prop where
  limiter : ahead.limiter.Ahead last behind.limiter
  grants : ahead.grants = behind.grants

theorem perform_reserve (log : Log) (holder : Nat) (party : Party) (key : String)
    (limits : Limits) (cost : Nat) (now : Instant) :
    log.perform (.reserve holder party key limits cost now) =
      { limiter := (log.limiter.reserve party key limits cost now).1
        grants := log.grants ++
          (log.limiter.reserve party key limits cost now).2.toOption.toList.map
            fun admission => { holder, admission, instant := now } } := by
  simp only [perform]
  rcases log.limiter.reserve party key limits cost now with ⟨limiter, refusal | admission⟩ <;>
    simp [Except.toOption]

namespace Ahead

variable {last now : Instant} {ahead behind : Log}

theorem giveBack (h : Ahead last ahead behind) {holder : Nat} {party : Party} (hLast : last ≤ now)
    (hReach : ∀ admission ∈ (behind.outOf holder party).head?,
      behind.limiter.InReach admission.party admission.key now)
    (cost : Admission → Nat) :
    Ahead now (ahead.giveBack holder party now cost) (behind.giveBack holder party now cost) := by
  have hSame : ahead.outOf holder party = behind.outOf holder party :=
    outOf_of_grants_eq h.grants
  cases hOut : behind.outOf holder party with
  | nil =>
      rw [giveBack_of_nil hOut, giveBack_of_nil (hSame.trans hOut)]
      exact ⟨h.limiter.later hLast, h.grants⟩
  | cons admission rest =>
      rw [giveBack_of_cons hOut, giveBack_of_cons (hSame.trans hOut), h.grants]
      exact ⟨h.limiter.settle hLast (hReach admission (by rw [hOut]; rfl)) _, rfl⟩

/-- A query that comes to both is answered alike, and leaves them as they were to each other. -/
theorem ask (h : Ahead last ahead behind) {query : Query}
    (hLast : ∀ now ∈ query.instant?, last ≤ now) (hReach : Moment.InReach ⟨behind, query⟩) :
    ahead.answer query = behind.answer query ∧
      Ahead (query.instant?.getD last) (ahead.ask query) (behind.ask query) := by
  cases query with
  | look party key now =>
      have hNow := hLast now rfl
      exact ⟨congrArg Answer.read (h.limiter.load hNow party key), h.limiter.later hNow, h.grants⟩
  | step move =>
      cases move with
      | reserve holder party key limits cost now =>
          have hNow := hLast now rfl
          have hSame := h.limiter.reserve_snd_eq hNow hReach limits cost
          refine ⟨by simp only [answer, hSame], ?_⟩
          simp only [Log.ask, perform_reserve, hSame, h.grants]
          exact ⟨h.limiter.reserve hNow hReach limits cost, rfl⟩
      | settle holder party actual now =>
          exact ⟨by simp only [answer, outOf_of_grants_eq h.grants],
            h.giveBack (hLast now rfl) hReach _⟩
      | abandon holder party now =>
          exact ⟨by simp only [answer, outOf_of_grants_eq h.grants],
            h.giveBack (hLast now rfl) hReach _⟩
      | forget key =>
          exact ⟨congrArg Answer.forgotten (h.limiter.forget_snd_eq key),
            h.limiter.forget key, h.grants⟩

/-- A call that is refused on one side only, where its key has a cell. -/
theorem ask_idle (h : Ahead last ahead behind) {query : Query}
    (hLast : ∀ now ∈ query.instant?, last ≤ now)
    (hIdle : Moment.isIdle ⟨ahead, query⟩ = true) :
    Ahead (query.instant?.getD last) (ahead.ask query) behind := by
  cases query with
  | look party key now => cases hIdle
  | step move =>
      cases move with
      | reserve holder party key limits cost now =>
          simp only [Moment.isIdle, Moment.isRefused, Moment.answer, answer,
            Bool.and_eq_true] at hIdle
          obtain ⟨hRefused, hCell⟩ := hIdle
          cases hAnswer : (ahead.limiter.reserve party key limits cost now).2 with
          | ok admission => simp [hAnswer] at hRefused
          | error refusal =>
              simp only [Log.ask, perform_reserve, hAnswer]
              exact ⟨h.limiter.reserve_refused (hLast now rfl) hAnswer hCell,
                by simpa [Except.toOption] using h.grants⟩
      | settle holder party actual now => cases hIdle
      | abandon holder party now => cases hIdle
      | forget key => cases hIdle

end Ahead

theorem pairwise_instants {last : Instant} {query : Query} {rest : List Query}
    (hOrder : (last :: (query :: rest).filterMap Query.instant?).Pairwise (· ≤ ·)) :
    (∀ now ∈ query.instant?, last ≤ now) ∧
      (query.instant?.getD last :: rest.filterMap Query.instant?).Pairwise (· ≤ ·) := by
  cases hInstant : query.instant? with
  | none =>
      rw [List.filterMap_cons_none hInstant] at hOrder
      exact ⟨nofun, hOrder⟩
  | some instant =>
      rw [List.filterMap_cons_some hInstant] at hOrder
      obtain ⟨hLast, hRest⟩ := List.pairwise_cons.mp hOrder
      refine ⟨fun now hNow => ?_, hRest⟩
      cases hNow
      exact hLast instant List.mem_cons_self

theorem Ahead.opened (window : Duration) : Ahead 0 (opened window) (opened window) where
  limiter :=
    { window := rfl
      window_pos := Nat.lt_of_lt_of_le (by decide) (Nat.le_max_right window (Duration.ofMillis 1))
      fresh := rfl
      cells := fun party key => by
        rw [Log.opened, new_cell?]
        exact .none }
  grants := rfl

theorem Ahead.answers {last : Instant} {ahead behind : Log} {queries : List Query}
    (h : Ahead last ahead behind)
    (hOrder : (last :: queries.filterMap Query.instant?).Pairwise (· ≤ ·))
    (hReach : ∀ moment ∈ behind.moments (ahead.withoutIdle queries), moment.InReach) :
    behind.answers (ahead.withoutIdle queries) =
      ((ahead.moments queries).filter (!·.isIdle)).map Moment.answer := by
  induction queries generalizing last ahead behind with
  | nil => rfl
  | cons query rest ih =>
      obtain ⟨hLast, hRest⟩ := pairwise_instants hOrder
      cases hIdle : Moment.isIdle ⟨ahead, query⟩ with
      | true =>
          simp only [withoutIdle, moments, List.filter_cons, hIdle, Bool.not_true,
            Bool.false_eq_true, if_false] at hReach ⊢
          exact ih (h.ask_idle hLast hIdle) hRest hReach
      | false =>
          simp only [withoutIdle, moments, List.filter_cons, hIdle, Bool.not_false, if_true,
            List.map_cons, Log.answers] at hReach ⊢
          obtain ⟨hFirst, hLater⟩ := List.forall_mem_cons.mp hReach
          obtain ⟨hSame, hAsked⟩ := h.ask hLast hFirst
          exact List.cons_eq_cons.mpr ⟨hSame.symm, ih hAsked hRest hLater⟩

end Log

/-- A refusal that is not idle comes to a key without a cell, and is one under every load. -/
theorem Moment.refused_of_not_idle {moment : Moment} (hRefused : moment.isRefused = true)
    (hIdle : moment.isIdle = false) :
    ∃ holder party key limits cost now,
      moment.query = .step (.reserve holder party key limits cost now) ∧
        moment.before.limiter.cell? party key = none ∧
        ∀ load, limits.refusal? load cost ≠ none := by
  obtain ⟨log, query⟩ := moment
  cases query with
  | look party key now => cases hRefused
  | step move =>
      cases move with
      | reserve holder party key limits cost now =>
          simp only [isIdle, hRefused, Bool.true_and] at hIdle
          have hNone : log.limiter.cell? party key = none := by
            cases hCell : log.limiter.cell? party key with
            | none => rfl
            | some cell => simp [hCell] at hIdle
          refine ⟨holder, party, key, limits, cost, now, rfl, hNone,
            Limits.refusal?_ne_none_of_empty fun hOpen => ?_⟩
          simp only [isRefused, answer, Log.answer, reserve_snd,
            currentCell_of_none _ _ _ _ hNone] at hRefused
          rw [show (Counters.load { start := now } : Load) = {} from rfl, hOpen] at hRefused
          cases hRefused
      | settle holder party actual now => cases hRefused
      | abandon holder party now => cases hRefused
      | forget key => cases hRefused

/-- A refused call on a key that has a cell could as well not have been made: without all of
these, what is left of a run is answered as before, each place and each reading of it, as long as
no cell falls further behind than one move can take it. The other refused calls are those that no
load would let in. -/
theorem Log.answers_withoutIdle (window : Duration) (queries : List Query)
    (hOrder : (queries.filterMap Query.instant?).Pairwise (· ≤ ·))
    (hReach : ∀ moment ∈ (opened window).moments ((opened window).withoutIdle queries),
      moment.InReach) :
    (opened window).answers ((opened window).withoutIdle queries) =
        (((opened window).moments queries).filter (!·.isIdle)).map Moment.answer ∧
      ∀ moment ∈ (opened window).moments queries,
        moment.isRefused = true → moment.isIdle = false →
        ∃ holder party key limits cost now,
          moment.query = .step (.reserve holder party key limits cost now) ∧
            moment.before.limiter.cell? party key = none ∧
            ∀ load, limits.refusal? load cost ≠ none :=
  ⟨(Ahead.opened window).answers
      (List.pairwise_cons.mpr ⟨fun instant _ => Nat.zero_le instant, hOrder⟩) hReach,
    fun _ _ => Moment.refused_of_not_idle⟩

/-- A place under a limit of one call at one time. Two calls are refused, one of them in a later
window and the other for a caller, and then the place comes back. -/
def fullQueries : List Query :=
  let limits : Limits := { tokens := some 10, parallel := some 1 }
  [.step (.reserve 0 .deployment "d1" limits 6 0), .step (.reserve 1 .caller "d1" {} 4 5000000000),
    .step (.reserve 2 .caller "d1" { requests := some 1 } 4 6000000000),
    .step (.reserve 2 .deployment "d1" limits 4 61000000000),
    .step (.settle 0 .deployment 9 70000000000),
    .look .deployment "d1" 70000000000, .step (.reserve 2 .deployment "d1" limits 8 70000000000),
    .look .caller "d1" 70000000000, .step (.forget "d1")]

theorem Log.answers_withoutIdle_full :
    let log := opened (Duration.ofSeconds 60)
    ((log.moments fullQueries).filter Moment.isIdle).length = 2 ∧
      log.answers (log.withoutIdle fullQueries) =
        ((log.moments fullQueries).filter (!·.isIdle)).map Moment.answer :=
  ⟨by decide, (answers_withoutIdle (Duration.ofSeconds 60) fullQueries (by decide)
    (by decide)).1⟩

/-- A call that asks for more tokens than its limit has in all, and 40 seconds later the first
of two calls that fit it one by one. -/
def lateQueries : List Query :=
  let limits : Limits := { tokens := some 10 }
  [.step (.reserve 0 .deployment "d1" limits 11 0),
    .step (.reserve 1 .deployment "d1" limits 6 40000000000), .look .deployment "d1" 70000000000,
    .step (.reserve 2 .deployment "d1" limits 6 70000000000)]

/-- The first refusal begins the window of the grants, and the second one fits only because it
does. -/
theorem Log.answers_withoutRefused_late :
    let log := opened (Duration.ofSeconds 60)
    let kept := (log.moments lateQueries).filter (!·.isRefused)
    (lateQueries.filterMap Query.instant?).Pairwise (· ≤ ·) ∧
      log.answers (kept.map Moment.query) ≠ kept.map Moment.answer := by
  decide

end Limiter

end DeploymentRouting
