import DeploymentRouting.Cooldown
import DeploymentRouting.Table
/-!
The health of deployments as their calls report it. A record holds the end of the
current cooldown, the consecutive failures, the successes and failures of the
current observation window, and a moving average of latencies. A success ends a
series of failures and does not shorten a cooldown. A request that was refused for
its own faults leaves series and cooldown alone.
-/
namespace DeploymentRouting

/-- What one call says about the health of its deployment. -/
inductive Outcome where
  | success
  | retriableError
  | nonRetriableError
  | rateLimited
deriving DecidableEq, Repr

/-- Outcomes that lengthen a series of failures. -/
def Outcome.isHealthFailure : Outcome → Bool
  | .retriableError | .rateLimited => true
  | .success | .nonRetriableError => false

/-- The record of one deployment. -/
structure HealthRecord where
  cooldownUntil : Option Instant := none
  consecutiveFailures : Nat := 0
  /-- Start of the observation window, which the first outcome opens. -/
  windowStart : Option Instant := none
  successes : Nat := 0
  failures : Nat := 0
  averageLatency : Option Duration := none
deriving DecidableEq, Repr, Inhabited

/-- A record as it reads at one instant. -/
structure HealthView where
  cooldownUntil : Option Instant := none
  consecutiveFailures : Nat := 0
  successes : Nat := 0
  failures : Nat := 0
  averageLatency : Option Duration := none
deriving DecidableEq, Repr, Inhabited

namespace HealthView

/-- Whether no cooldown goes beyond an instant. -/
def isEligible (view : HealthView) (now : Instant) : Bool := view.cooldownUntil.all (· ≤ now)

/-- The rest of a cooldown that goes beyond an instant. -/
def cooldownRemaining (view : HealthView) (now : Instant) : Option Duration :=
  (view.cooldownUntil.filter (now < ·)).map (· - now)

end HealthView

namespace HealthRecord

/-- Whether the observation window does not reach an instant. -/
def windowOver (record : HealthRecord) (window : Duration) (now : Instant) : Bool :=
  record.windowStart.all fun start => window ≤ now - start

/-- Opens a new observation window if the old one is over. -/
def roll (record : HealthRecord) (window : Duration) (now : Instant) : HealthRecord :=
  if record.windowOver window now then
    { record with windowStart := some now, successes := 0, failures := 0 }
  else record

/-- Adds a failure to the series. A cooldown that it calls for lasts at least as long as
the one before. -/
def addFailure (record : HealthRecord) (policy : CooldownPolicy) (now : Instant) :
    HealthRecord × Option Instant :=
  let record :=
    { record with
      failures := record.failures + 1
      consecutiveFailures := Counter.add32 record.consecutiveFailures 1 }
  match policy.backoff record.consecutiveFailures with
  | none => (record, none)
  | some rest =>
      let ends := max (record.cooldownUntil.getD 0) (now + rest)
      ({ record with cooldownUntil := some ends }, some ends)

/-- Adds the outcome of a call and tells the end of the cooldown that it started or kept up. -/
def add (record : HealthRecord) (policy : CooldownPolicy) (window : Duration)
    (outcome : Outcome) (now : Instant) : HealthRecord × Option Instant :=
  let record := record.roll window now
  match outcome with
  | .success => ({ record with successes := record.successes + 1, consecutiveFailures := 0 }, none)
  | .nonRetriableError => ({ record with failures := record.failures + 1 }, none)
  | .retriableError | .rateLimited => record.addFailure policy now

/-- Adds a latency, which counts one part in five of the new average. -/
def addLatency (record : HealthRecord) (latency : Duration) : HealthRecord :=
  { record with
    averageLatency := some (match record.averageLatency with
      | none => latency
      | some average => (latency + average * 4) / 5) }

/-- The counts of a window that is over read as zero. -/
def view (record : HealthRecord) (window : Duration) (now : Instant) : HealthView where
  cooldownUntil := record.cooldownUntil
  consecutiveFailures := record.consecutiveFailures
  successes := if record.windowOver window now then 0 else record.successes
  failures := if record.windowOver window now then 0 else record.failures
  averageLatency := record.averageLatency

end HealthRecord

/-- The records of all deployments. A record begins with the first outcome or latency. -/
structure HealthTracker where
  policy : CooldownPolicy := CooldownPolicy.standard
  window : Duration := Duration.ofSeconds 60
  records : Table HealthRecord := ∅

namespace HealthTracker

def record (tracker : HealthTracker) (id : String) : HealthRecord :=
  (tracker.records.get? id).getD {}

def addOutcome (tracker : HealthTracker) (id : String) (outcome : Outcome) (now : Instant) :
    HealthTracker × Option Instant :=
  let (record, ends) := (tracker.record id).add tracker.policy tracker.window outcome now
  ({ tracker with records := tracker.records.insert id record }, ends)

def addLatency (tracker : HealthTracker) (id : String) (latency : Duration) : HealthTracker :=
  { tracker with records := tracker.records.insert id ((tracker.record id).addLatency latency) }

def view (tracker : HealthTracker) (id : String) (now : Instant) : HealthView :=
  (tracker.record id).view tracker.window now

/-- Whether a deployment is out of cooldown. One without a record is. -/
def isEligible (tracker : HealthTracker) (id : String) (now : Instant) : Bool :=
  match tracker.records.get? id with
  | some record => record.cooldownUntil.all (· ≤ now)
  | none => true

def remove (tracker : HealthTracker) (id : String) : HealthTracker :=
  { tracker with records := tracker.records.erase id }

end HealthTracker

end DeploymentRouting
