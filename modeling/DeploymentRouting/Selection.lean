import DeploymentRouting.Deployment
import DeploymentRouting.Health
import DeploymentRouting.Random
import DeploymentRouting.Sorting
import DeploymentRouting.Strategy
import DeploymentRouting.Table
/-!
The choice of one deployment among candidates. Candidates come in tiers. In a tier
those count that are out of cooldown and would get a place, in the order of their
ids, and the first tier that has one decides. The choice is made from views, and
apart from the cursors of the rotation it changes nothing.
-/
namespace DeploymentRouting

/-- A deployment with all that a choice needs to know about it. -/
structure Candidate where
  deployment : Deployment
  health : HealthView
  load : Load
  /-- Whether it would get a place for the request. -/
  admissible : Bool

namespace Candidate

def id (candidate : Candidate) : String := candidate.deployment.id

/-- Whether it can be chosen at an instant. -/
def isLive (candidate : Candidate) (now : Instant) : Bool :=
  candidate.health.isEligible now && candidate.admissible

end Candidate

inductive Selection where
  | chosen (deployment : Deployment)
  | noneEligible
  /-- The weights or the latencies add up to more than can be told, so that there is no point to
  draw or no mean to compare with. It ends the whole program. -/
  | overflow

/-- Weights that overflow end the program as latencies do: the end has no case of its own. -/
@[match_pattern]
abbrev Selection.weightOverflow : Selection := .overflow

/-- Positions of the rotation, one for each model. -/
structure Cursors where
  counters : Table Nat := ∅

namespace Cursors

/-- The next position below `count` for a model. Where there is no choice, the rotation does
not move. -/
def next (cursors : Cursors) (model : String) (count : Nat) : Nat × Cursors :=
  if count ≤ 1 then (0, cursors)
  else
    let counter := (cursors.counters.get? model).getD 0
    (counter % count, ⟨cursors.counters.insert model (Counter.wrap64 (counter + 1))⟩)

end Cursors

namespace Selection

/-- A score that can be added up: nothing below zero, and zero for one that is infinite or no
number. -/
def usableScore (score : Float) : Float :=
  let bounded := if 0.0 < score then score else 0.0
  if bounded.isFinite then bounded else 0.0

/-- The candidate on whose stretch a point lies, when the scores are laid end to end. A point
that rounding has put beyond the last stretch belongs to it. -/
def atPoint (last : Candidate) : List (Candidate × Float) → Float → Candidate
  | [], _ => last
  | (candidate, score) :: rest, point =>
      if point < score then candidate else atPoint candidate rest (point - score)

/-- A choice by chance, in proportion to the scores. One candidate alone needs no chance, and
where no score is above zero all are equally likely. -/
def weighted (score : Candidate → Float) (first : Candidate) (rest : List Candidate)
    (random : RandomSource) : Option Candidate × RandomSource :=
  if rest.isEmpty then (some first, random)
  else
    let candidates := first :: rest
    let scores := candidates.map fun candidate => usableScore (score candidate)
    let total := scores.foldl (· + ·) 0.0
    if total ≤ 0.0 then
      let (index, random) := random.drawIndex candidates.length
      (some (candidates.getD index first), random)
    else if total.isFinite then
      let (point, random) := random.drawPoint total
      (some (atPoint first (candidates.zip scores) point), random)
    else (none, random)

/-- The weight of a candidate, shared among its calls in flight and one more. -/
def busyScore (candidate : Candidate) : Float :=
  candidate.deployment.weight / (floatOfCount candidate.load.inFlight + 1.0)

/-- The latencies that are known of some candidates. -/
def measuredLatencies (candidates : List Candidate) : List Duration :=
  candidates.filterMap (·.health.averageLatency)

/-- The mean of the latencies that are known, to the nanosecond below, and zero if none is. It
cannot be told if their sum is longer than any span, or if the 32-bit counter of them has come
round to zero. -/
def meanLatency (candidates : List Candidate) : Option Duration :=
  let known := measuredLatencies candidates
  let total := known.foldl (· + ·) 0
  let count := Counter.wrap32 known.length
  if known.isEmpty then some 0
  else if Duration.longest < total || count = 0 then none
  else some (total / count)

/-- The first candidate whose measure no later one undercuts. -/
def lowest {β : Type} (below : β → β → Bool) (measure : Candidate → β) (best : Candidate) :
    List Candidate → Candidate
  | [] => best
  | candidate :: rest =>
      let best := if below (measure candidate) (measure best) then candidate else best
      lowest below measure best rest

/-- The candidate with the lowest latency, where one without latency counts as average. -/
def lowestLatency (first : Candidate) (rest : List Candidate) : Option Candidate :=
  (meanLatency (first :: rest)).map fun mean =>
    lowest (fun a b => decide (a < b))
      (fun candidate => candidate.health.averageLatency.getD mean) first rest

/-- The candidate that has used the least part of its token limit. -/
def lowestUsage (first : Candidate) (rest : List Candidate) : Candidate :=
  lowest (fun a b => decide (a < b))
    (fun candidate => candidate.deployment.limits.tokenShare candidate.load) first rest

/-- One of the candidates, of which there is at least one. -/
def choose (strategy : Strategy) (model : String) (first : Candidate) (rest : List Candidate)
    (cursors : Cursors) (random : RandomSource) : Option Candidate × Cursors × RandomSource :=
  match strategy with
  | .simpleShuffle =>
      let (choice, random) := weighted (·.deployment.weight) first rest random
      (choice, cursors, random)
  | .leastBusy =>
      let (choice, random) := weighted busyScore first rest random
      (choice, cursors, random)
  | .roundRobin =>
      let (position, cursors) := cursors.next model (rest.length + 1)
      (some ((first :: rest).getD position first), cursors, random)
  | .latencyBased => (lowestLatency first rest, cursors, random)
  | .usageBased => (some (lowestUsage first rest), cursors, random)

/-- The candidates of a tier that can be chosen at an instant, in the order of their ids. -/
def live (now : Instant) (tier : List Candidate) : List Candidate :=
  Sorting.sortBy (fun a b => decide (a.id ≤ b.id)) (tier.filter (·.isLive now))

/-- Chooses from the first tier in which a candidate can be chosen. -/
def select (strategy : Strategy) (model : String) (now : Instant) (cursors : Cursors)
    (random : RandomSource) : List (List Candidate) → Selection × Cursors × RandomSource
  | [] => (.noneEligible, cursors, random)
  | tier :: tiers =>
      match live now tier with
      | [] => select strategy model now cursors random tiers
      | first :: rest =>
          match choose strategy model first rest cursors random with
          | (some candidate, cursors, random) => (.chosen candidate.deployment, cursors, random)
          | (none, cursors, random) => (.overflow, cursors, random)

/-- Chooses once for each of some models, one after the other, unless a choice overflows. -/
def selectEach (strategy : Strategy) (now : Instant) (tiers : List (List Candidate)) :
    Cursors → RandomSource → List String → Option (List (Option Deployment) × RandomSource)
  | _, random, [] => some ([], random)
  | cursors, random, model :: rest => do
      let (choice, cursors, random) ← match select strategy model now cursors random tiers with
        | (.chosen deployment, after) => some (some deployment, after)
        | (.noneEligible, after) => some (none, after)
        | (.overflow, _) => none
      let (others, random) ← selectEach strategy now tiers cursors random rest
      return (choice :: others, random)

end Selection

end DeploymentRouting
